import SpecForest.Proofs.Source.Signs

/-!
# Integers in every base

An integer is written in decimal, behind a zero and a letter for its base, or in octal behind a zero alone, with
underscores between the digits and behind what marks the base. Whichever spelling is taken, it is a single token, and
as an argument of an entry it is the number if that fits in 63 bits, and otherwise its own text.
-/

namespace SpecForest.Source

/-! ## Spellings -/

/-- What can stand between two digits. -/
def separator (underscore : Bool) : List Char :=
  if underscore then ['_'] else []

/-- A number, digit by digit from the greatest on, with or without an underscore between any two. -/
inductive WritesNumber (base : Nat) : Nat → List Char → Prop
  | digit {d : Nat} (lt : d < base) (upper : Bool) : WritesNumber base d [digitOf upper d]
  | next {n d : Nat} {text : List Char} (front : WritesNumber base n text) (underscore : Bool) (lt : d < base)
      (upper : Bool) : WritesNumber base (n * base + d) (text ++ (separator underscore ++ [digitOf upper d]))

/-- The letters that tell a base behind a zero, with that base. -/
def baseLetters : List (Char × Nat) :=
  [('x', 16), ('X', 16), ('o', 8), ('O', 8), ('b', 2), ('B', 2)]

/-- The spellings of a number as an integer. -/
inductive SpellsInteger : Nat → List Char → Prop
  /-- Only zero itself begins with a zero. -/
  | decimal {n : Nat} {text : List Char} (digits : WritesNumber 10 n text)
      (no_zero : text = ['0'] ∨ text.head? ≠ some '0') : SpellsInteger n text
  | based {n base : Nat} {letter : Char} {text : List Char} (mem : (letter, base) ∈ baseLetters) (underscore : Bool)
      (digits : WritesNumber base n text) : SpellsInteger n ('0' :: letter :: (separator underscore ++ text))
  | octal {n : Nat} {text : List Char} (underscore : Bool) (digits : WritesNumber 8 n text) :
      SpellsInteger n ('0' :: (separator underscore ++ text))

theorem WritesNumber.exists_cons {base n : Nat} {text : List Char} (h : WritesNumber base n text) :
    ∃ d upper rest, d < base ∧ text = digitOf upper d :: rest := by
  induction h with
  | digit lt upper => exact ⟨_, upper, [], lt, rfl⟩
  | next front underscore lt upper ih =>
    obtain ⟨d, first, rest, hd, rfl⟩ := ih
    exact ⟨d, first, _, hd, rfl⟩

/-! ## The number that a spelling stands for -/

/-- A text without its underscores and in lower case. -/
def cleaned (text : List Char) : List Char :=
  (text.filter (· != '_')).map Char.toLower

@[simp] theorem cleaned_append (a b : List Char) : cleaned (a ++ b) = cleaned a ++ cleaned b := by
  simp [cleaned]

@[simp] theorem cleaned_separator (underscore : Bool) : cleaned (separator underscore) = [] := by
  cases underscore <;> decide

theorem cleaned_digitOf_all : ∀ d < 16, ∀ upper : Bool, cleaned [digitOf upper d] = [digitOf false d] := by
  decide

theorem cleaned_digitOf {d : Nat} (h : d < 16) (upper : Bool) (rest : List Char) :
    cleaned (digitOf upper d :: rest) = digitOf false d :: cleaned rest := by
  rw [← List.singleton_append, cleaned_append, cleaned_digitOf_all d h upper]
  rfl

/-- One more digit behind some others. -/
theorem readDigits?_concat (base acc : Nat) (cs : List Char) (c : Char) :
    readDigits? base (cs.length + 1) acc (cs ++ [c]) =
      (readDigits? base cs.length acc cs).bind fun n => (digitValue? base c).map (n * base + ·) := by
  induction cs generalizing acc with
  | nil =>
    simp only [List.nil_append, List.length_nil, readDigits?, Option.bind_some]
    cases digitValue? base c <;> rfl
  | cons b cs ih =>
    simp only [List.cons_append, List.length_cons, readDigits?, Option.bind_assoc, ih]

theorem WritesNumber.numberIn?_eq {base n : Nat} {text : List Char} (hbase : base ≤ 16)
    (h : WritesNumber base n text) : numberIn? base (cleaned text) = some n := by
  induction h with
  | @digit d lt upper =>
    rw [cleaned_digitOf (by omega)]
    simp [numberIn?, cleaned, readDigits?, digitValue?_digitOf hbase lt]
  | @next n d text front underscore lt upper ih =>
    have hclean : cleaned (text ++ (separator underscore ++ [digitOf upper d])) =
        cleaned text ++ [digitOf false d] := by
      simp [cleaned_digitOf_all d (by omega) upper]
    have hread : readDigits? base (cleaned text).length 0 (cleaned text) = some n := by
      rw [numberIn?] at ih
      split at ih
      · cases ih
      · exact ih
    rw [hclean, numberIn?, if_neg (by simp), List.length_append, List.length_singleton, readDigits?_concat, hread,
      Option.bind_some, digitValue?_digitOf hbase lt]
    rfl

theorem integerValue?_based {letter : Char} {base : Nat} (h : (letter, base) ∈ baseLetters) (text : List Char) :
    integerValue? ('0' :: letter :: text) = numberIn? base (cleaned text) := by
  have hall : ∀ p ∈ baseLetters, ∃ lower, cleaned ['0', p.1] = ['0', lower] ∧
      (lower = 'x' ∧ p.2 = 16 ∨ lower = 'o' ∧ p.2 = 8 ∨ lower = 'b' ∧ p.2 = 2) := by
    simp [baseLetters, cleaned]
  obtain ⟨lower, hletter, hbase⟩ := hall (letter, base) h
  have hclean : cleaned ('0' :: letter :: text) = '0' :: lower :: cleaned text := by
    calc cleaned ('0' :: letter :: text) = cleaned ['0', letter] ++ cleaned text := cleaned_append ['0', letter] text
      _ = '0' :: lower :: cleaned text := by rw [hletter]; rfl
  rw [cleaned] at hclean
  rw [integerValue?, hclean]
  rcases hbase with ⟨rfl, rfl⟩ | ⟨rfl, rfl⟩ | ⟨rfl, rfl⟩ <;> rfl

theorem SpellsInteger.integerValue?_eq {n : Nat} {text : List Char} (h : SpellsInteger n text) :
    integerValue? text = some n := by
  cases h with
  | decimal digits no_zero =>
    have hdecimal : ∀ d ds, cleaned text ≠ '0' :: d :: ds := by
      rintro d ds heq
      rcases no_zero with rfl | hhead
      · cases heq
      · obtain ⟨first, upper, rest, hfirst, rfl⟩ := digits.exists_cons
        rw [cleaned_digitOf (by omega)] at heq
        have hall : ∀ e < 10, ∀ upper : Bool, digitOf false e = '0' → digitOf upper e = '0' := by decide
        rw [hall first hfirst upper (List.cons.inj heq).1] at hhead
        exact hhead rfl
    rw [integerValue?_decimal hdecimal]
    exact digits.numberIn?_eq (by decide)
  | @based base letter text mem underscore digits =>
    have hall : ∀ p ∈ baseLetters, p.2 ≤ 16 := by decide
    rw [integerValue?_based mem, cleaned_append, cleaned_separator, List.nil_append]
    exact digits.numberIn?_eq (hall _ mem)
  | @octal text underscore digits =>
    obtain ⟨d, upper, rest, hd, rfl⟩ := digits.exists_cons
    have hall : ∀ d < 8, digitOf false d ≠ 'x' ∧ digitOf false d ≠ 'o' ∧ digitOf false d ≠ 'b' := by decide
    obtain ⟨hx, ho, hb⟩ := hall d hd
    have hclean : cleaned ('0' :: (separator underscore ++ digitOf upper d :: rest)) =
        '0' :: digitOf false d :: cleaned rest := by
      rw [← cleaned_digitOf (by omega) upper, ← List.nil_append (cleaned (digitOf upper d :: rest)),
        ← cleaned_separator underscore, ← cleaned_append]
      rfl
    rw [integerValue?_octal hclean hx ho hb, ← cleaned_digitOf (by omega) upper]
    exact digits.numberIn?_eq (by decide)

/-! ## One token -/

/-- The shape of a text that is read as an integer: a digit, and what goes on with an integer. -/
structure IsIntegerText (c : Char) (cs : List Char) : Prop where
  first : c.isDigit = true
  behind : ∀ d ∈ cs, continuesInteger (startsHex c cs) d = true

/-- The digits above nine go on with an integer only if it is hexadecimal, since `e` marks an exponent otherwise. -/
theorem continuesInteger_digitOf : ∀ hex : Bool, ∀ d < if hex then 16 else 10, ∀ upper : Bool,
    continuesInteger hex (digitOf upper d) = true := by
  intro hex
  cases hex with
  | false => decide
  | true => decide

theorem continuesInteger_separator (hex underscore : Bool) :
    ∀ c ∈ separator underscore, continuesInteger hex c = true := by
  cases underscore with
  | false => exact fun c hc => absurd hc List.not_mem_nil
  | true => exact List.forall_mem_singleton.mpr (by cases hex <;> rfl)

theorem WritesNumber.continues {base n : Nat} {text : List Char} {hex : Bool}
    (hbase : base ≤ if hex then 16 else 10) (h : WritesNumber base n text) :
    ∀ c ∈ text, continuesInteger hex c = true := by
  induction h with
  | digit lt upper => exact List.forall_mem_singleton.mpr (continuesInteger_digitOf hex _ (by omega) upper)
  | next front underscore lt upper ih =>
    exact List.forall_mem_append.mpr ⟨ih, List.forall_mem_append.mpr ⟨continuesInteger_separator hex underscore,
      List.forall_mem_singleton.mpr (continuesInteger_digitOf hex _ (by omega) upper)⟩⟩

theorem SpellsInteger.isIntegerText {n : Nat} {text : List Char} (h : SpellsInteger n text) :
    ∃ c cs, text = c :: cs ∧ IsIntegerText c cs := by
  -- without a letter in front of them, the digits are below ten and go on with an integer of either kind
  have hten : ∀ hex : Bool, 10 ≤ if hex then 16 else 10 := by decide
  cases h with
  | decimal digits no_zero =>
    obtain ⟨d, upper, rest, hd, rfl⟩ := digits.exists_cons
    have hdigit : ∀ d < 10, ∀ upper : Bool, (digitOf upper d).isDigit = true := by decide
    exact ⟨_, rest, rfl, hdigit d hd upper, (List.forall_mem_cons.mp (digits.continues (hten _))).2⟩
  | @based base letter text mem underscore digits =>
    have hall : ∀ p ∈ baseLetters, continuesInteger (startsHex '0' [p.1]) p.1 = true ∧
        p.2 ≤ if startsHex '0' [p.1] then 16 else 10 := by
      decide
    obtain ⟨hletter, hbase⟩ := hall _ mem
    exact ⟨'0', _, rfl, rfl, List.forall_mem_cons.mpr ⟨hletter, List.forall_mem_append.mpr
      ⟨continuesInteger_separator _ underscore, digits.continues hbase⟩⟩⟩
  | @octal text underscore digits =>
    exact ⟨'0', _, rfl, rfl, List.forall_mem_append.mpr ⟨continuesInteger_separator _ underscore,
      digits.continues (Nat.le_trans (by decide) (hten _))⟩⟩

theorem startsHex_append {c : Char} {cs next : List Char} (hnext : EndsNumber next) :
    startsHex c (cs ++ next) = startsHex c cs := by
  cases cs with
  | cons d cs => rfl
  | nil =>
    cases next with
    | nil => rfl
    | cons d next =>
      have hd := (hnext d rfl).1
      have hx : d ≠ 'x' ∧ d ≠ 'X' := by
        constructor <;> rintro rfl <;> exact absurd hd (by decide)
      simp [startsHex, hx]

/-- In front of what ends an argument, an integer is one token. -/
theorem IsIntegerText.tokensFrom_eq {c : Char} {cs : List Char} (h : IsIntegerText c cs) (p : Position)
    {next : List Char} (hnext : EndsArgument next) :
    tokensFrom p (c :: cs ++ next) = (tokensFrom (p.advance (c :: cs)) next).map
      (⟨"", String.ofList (c :: cs), .integer, p⟩ :: ·) := by
  have hread : readToken c (cs ++ next) = .ok (.integer, cs.length) :=
    readToken_integer h.first (by rw [startsHex_append hnext.endsNumber]; exact h.behind) hnext.endsNumber
  have hgap : ∀ d ∈ ([] : List Char), Text.isBlank d = true := by simp
  exact tokensFrom_step p (gapLength_blanks hgap (beginsToken_of_isDigit h.first) (cs ++ next)) hread

/-- What is taken into a number makes it floating only if it cannot go on with an integer. -/
theorem numberTail_of_take {hex : Bool} {before : Char} {cs : List Char} {n : Nat}
    (hbefore : isExponentMark hex before = false) (hn : (numberTail hex false before cs).2 = n)
    (hcs : ∀ c ∈ cs.take n, continuesInteger hex c = true) : (numberTail hex false before cs).1 = false := by
  induction cs generalizing before n with
  | nil => rfl
  | cons c cs ih =>
    cases n with
    | zero =>
      simp only [numberTail, hbefore, Bool.false_and, Bool.false_eq_true, if_false] at hn ⊢
      split at hn
      · cases hn
      · rw [if_neg (by assumption)]
    | succ n =>
      obtain ⟨hc, hrest⟩ := List.forall_mem_cons.mp hcs
      rw [numberTail_cons hbefore hc] at hn ⊢
      exact ih (isExponentMark_of_continuesInteger hc) (Nat.succ.inj hn) hrest

/-- Wherever a token has such a text, it is an integer. -/
theorem IsIntegerText.kind_eq {c : Char} {cs : List Char} (h : IsIntegerText c cs) {t : Token} (ht : t.Genuine)
    (htext : t.text.toList = c :: cs) : t.kind = .integer := by
  obtain ⟨c', rest, n, hread, hchars⟩ := ht
  rw [htext] at hchars
  obtain ⟨rfl, rfl⟩ := List.cons.inj hchars
  have hbehind : ∀ d ∈ rest.take n, continuesInteger (startsHex c rest) d = true := by
    intro d hd
    have hn : n ≠ 0 := by
      rintro rfl
      exact absurd hd List.not_mem_nil
    have hhex : startsHex c (rest.take n) = startsHex c rest := by
      rw [startsHex, startsHex, List.head?_take, if_neg hn]
    rw [← hhex]
    exact h.behind d hd
  rw [readToken_digit h.first, readNumber, beq_dot_of_isDigit h.first] at hread
  obtain ⟨hkind, hn⟩ := Prod.mk.inj (Except.ok.inj hread)
  have hfloat := numberTail_of_take (isExponentMark_of_isDigit h.first _) hn hbehind
  rw [← hkind, hfloat]
  rfl

/-! ## One argument of an entry -/

/-- An argument of an entry, behind the description of the entry, in a table that the scan of a source comes to. -/
structure EntryArgument (source : String) (arg : List TokenTree) where
  all : List Token
  trees : List TokenTree
  tokens_eq : tokens source = .ok all
  group_eq : group all = .ok trees
  table : Call
  finds : Finds table .other trees
  isTable : table.kind = .table ∨ table.kind = .subtreeTable
  /-- The arguments of the table before the entry, the label among them. -/
  before : List (List TokenTree)
  after : List (List TokenTree)
  behind_label : before ≠ []
  entry : Call
  isEntry : entry.name.callKind? = some .entry
  arguments : splitArguments table.inner = before ++ entry.trees :: after
  description : List TokenTree
  params : List (List TokenTree)
  more : List (List TokenTree)
  pieces : splitArguments entry.inner = description :: (params ++ arg :: more)

namespace EntryArgument

variable {source : String} {arg : List TokenTree} (a : EntryArgument source arg)

/-- The source declares the table with a value in the place of the argument. -/
def HasValue (v : Value) : Prop :=
  ∃ found label arity first last body, scan source = .ok found ∧
    Declared (.table label arity (first ++ rowOf (readValue a.description)
      (rowValues a.params ++ v :: rowValues a.more) :: last) body) found.declarations ∧
    Selects IsRow (a.before.drop 1) first ∧ Selects IsRow a.after last

theorem hasValue_readValue (h : isDecorator arg = false) : a.HasValue (readValue arg) := by
  obtain ⟨first, last, hfirst, hlast, hentries⟩ := entriesOf_eq_row a.after a.behind_label a.isEntry a.pieces
  have hdeclares := Call.declarations_table a.isTable
  rw [rowValues_append_cons h, ← a.arguments] at hentries
  rw [hentries] at hdeclares
  obtain ⟨found, hfound, hdeclared⟩ :=
    a.finds.exists_declared a.tokens_eq a.group_eq (hdeclares ▸ List.mem_singleton_self _)
  exact ⟨found, _, _, first, last, _, hfound, hdeclared, hfirst, hlast⟩

theorem mem_tokens {t : Token} (ht : t ∈ TokenTree.allTokens arg) : t ∈ a.all := by
  obtain ⟨-, front, back, hinner, -⟩ := splitArguments_exchange a.arguments
  have hpieces : splitArguments a.entry.inner = (a.description :: a.params) ++ arg :: a.more := a.pieces
  obtain ⟨-, front', back', hentry, -⟩ := splitArguments_exchange hpieces
  obtain ⟨before, after, hexchange⟩ := a.finds.exchange
  obtain ⟨_, hsame⟩ := hexchange a.table ⟨rfl, rfl, rfl⟩
  have hall : a.all = TokenTree.allTokens a.trees := ((group_eq_ok_iff _ _).mp a.group_eq).2.symm
  rw [hall, hsame.tokens, Call.allTokens_trees, hinner]
  simp [Call.allTokens_trees, hentry, ht]

end EntryArgument

theorem readValue_integer {t : Token} {n : Nat} (hkind : t.kind = .integer)
    (hvalue : integerValue? t.text.toList = some n) :
    readValue [.token t] = if n < 2 ^ 63 then .int (Int64.ofInt n) else .expr t.text := by
  have htext : sourceText (TokenTree.allTokens [.token t]) = t.text := by
    simp [TokenTree.allTokens, TokenTree.tokens, sourceText]
  have hrange : n < 2 ^ 63 ↔ n ≤ greatestInteger := by
    simp only [greatestInteger]
    omega
  rw [readValue, literal?, Token.literal?, hkind, hvalue, htext]
  by_cases hn : n ≤ greatestInteger
  · rw [if_pos (hrange.mpr hn)]
    simp [Option.filter, hn]
  · rw [if_neg (mt hrange.mp hn)]
    simp [Option.filter, hn]

/-- Every spelling of a number, in front of a comma or a closing parenthesis, is one integer token. Every argument of
an entry that is a token of that text is the number itself if it is below `2 ^ 63`, and otherwise the spelling. -/
theorem integer_literals_read {n : Nat} {text : List Char} (h : SpellsInteger n text) :
    (∀ p next, EndsArgument next → tokensFrom p (text ++ next) =
      (tokensFrom (p.advance text) next).map (⟨"", String.ofList text, .integer, p⟩ :: ·)) ∧
    (n < 2 ^ 63 → (Int64.ofInt n).toInt = n) ∧
    ∀ (source : String) (t : Token) (a : EntryArgument source [.token t]), t.text = String.ofList text →
      a.HasValue (if n < 2 ^ 63 then .int (Int64.ofInt n) else .expr (String.ofList text)) := by
  obtain ⟨c, cs, rfl, hshape⟩ := h.isIntegerText
  refine ⟨fun p next hnext => hshape.tokensFrom_eq p hnext, fun hn => ?_, fun source t a htext => ?_⟩
  · exact Int64.toInt_ofInt_of_le (by omega) (by omega)
  · have hchars : t.text.toList = c :: cs := by rw [htext, String.toList_ofList]
    have hmem : t ∈ a.all := a.mem_tokens (by simp [TokenTree.allTokens, TokenTree.tokens])
    have hkind := hshape.kind_eq ((runIn_of_tokens a.tokens_eq).genuine hmem) hchars
    have hvalue : integerValue? t.text.toList = some n := by rw [hchars]; exact h.integerValue?_eq
    have hread := readValue_integer hkind hvalue
    rw [htext] at hread
    rw [← hread]
    exact a.hasValue_readValue (by simp [isDecorator, Token.isDecorator, hkind])

set_option maxRecDepth 2000 in
/-- A hexadecimal number with `e` for a digit, and the least number that is too great. -/
theorem integer_literals_read_hexadecimal :
    let declares (source : String) (v : Value) := ∃ found label arity first last body, scan source = .ok found ∧
      Declared (.table label arity (first ++ ⟨"d", [.bool true, v]⟩ :: last) body) found.declarations
    declares "DescribeTable(\"t\", f, Entry(\"d\", true, 0x_1e))" (.int 30) ∧
      declares "DescribeTable(\"t\", f, Entry(\"d\", true, 0X8000000000000000))" (.expr "0X8000000000000000") := by
  have one : WritesNumber 16 1 ['1'] := .digit (by decide) false
  have hsmall : SpellsInteger 30 "0x_1e".toList := .based (by decide) true (one.next false (d := 14) (by decide) false)
  have zero {n : Nat} {text : List Char} (h : WritesNumber 16 n text) := h.next false (d := 0) (by decide) false
  have eight : WritesNumber 16 8 ['8'] := .digit (by decide) false
  have hgreat : SpellsInteger (2 ^ 63) "0X8000000000000000".toList := .based (by decide) false
    (zero (zero (zero (zero (zero (zero (zero (zero (zero (zero (zero (zero (zero (zero (zero eight)))))))))))))))
  have hread {source : String} {n : Nat} {text : List Char} (h : SpellsInteger n text)
      (ha : ∃ t, ∃ a : EntryArgument source [.token t], t.text = String.ofList text ∧
        ∀ v, rowOf (readValue a.description) (rowValues a.params ++ v :: rowValues a.more) =
          ⟨"d", [.bool true, v]⟩) :
      ∃ found label arity first last body, scan source = .ok found ∧
        Declared (.table label arity (first ++ ⟨"d", [.bool true,
          if n < 2 ^ 63 then .int (Int64.ofInt n) else .expr (String.ofList text)]⟩ :: last) body)
          found.declarations := by
    obtain ⟨t, a, htext, hrow⟩ := ha
    obtain ⟨found, label, arity, first, last, body, hfound, hdeclared, -⟩ :=
      (integer_literals_read h).2.2 source t a htext
    exact ⟨found, label, arity, first, last, body, hfound, hrow _ ▸ hdeclared⟩
  refine ⟨hread hsmall ?_, hread hgreat ?_⟩ <;>
    exact ⟨_, ⟨_, _, by cbv, by cbv, ⟨.table, _, _, _, _⟩, @Finds.here ⟨.table, _, _, _, _⟩ .other [] rfl, .inl rfl,
      [_, _], [], by simp, ⟨.entry, _, _, _, _⟩, rfl, rfl, _, [_], [], rfl⟩, rfl, fun _ => rfl⟩

end SpecForest.Source

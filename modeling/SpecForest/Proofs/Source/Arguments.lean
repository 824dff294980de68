import Mathlib.Data.List.Forall2
import SpecForest.Proofs.Source.Lexing
import SpecForest.Proofs.Source.Rendering

/-!
# Reading written arguments

A written argument is read as trees without a comma among them, up to the comma or the parenthesis behind it.
So a written list of arguments is split into the arguments again, and what is known of each of them is
known of the pieces.

What an argument is to the call around it is its *role*: a value, a decorator, an entry, or a
function literal. The declarations of a call depend on the roles of its arguments alone.
-/

namespace SpecForest.Source

/-! ## Single arguments -/

/-- What comes next ends an argument. -/
def EndsArgument (next : List Char) : Prop := ∃ rest, next = ',' :: rest ∨ next = ')' :: rest

theorem EndsArgument.endsName {next : List Char} (h : EndsArgument next) : EndsName next := by
  intro c hc
  obtain ⟨rest, rfl | rfl⟩ := h
  · cases hc
    decide
  · cases hc
    decide

theorem EndsArgument.endsNumber {next : List Char} (h : EndsArgument next) : EndsNumber next := by
  intro c hc
  obtain ⟨rest, rfl | rfl⟩ := h
  · cases hc
    decide
  · cases hc
    decide

theorem Reads.nameText {gap text next : List Char} (hgap : ∀ d ∈ gap, Text.isBlank d = true)
    (htext : isNameText text = true) (hnext : EndsName next) :
    Reads (gap ++ text) [.token (bareToken gap text .name)] next := by
  cases text with
  | nil => cases htext
  | cons c cs =>
    simp only [isNameText, Bool.and_eq_true, List.all_eq_true] at htext
    exact Reads.name hgap htext.1 htext.2 hnext

/-- An opening parenthesis ends a name. -/
theorem endsName_paren (rest : List Char) : EndsName ('(' :: rest) := by
  intro c hc
  cases hc
  decide

/-- Trees that are one argument. -/
structure IsArgument (ts : List TokenTree) : Prop where
  fits : AllFit ts
  nonempty : ts ≠ []
  no_comma : ∀ t ∈ ts, t.isComma = false

/-- Wherever an argument can stand, a text is read as one with a property. -/
def ReadsArgument (text : List Char) (P : List TokenTree → Prop) : Prop :=
  ∀ gap next, (∀ c ∈ gap, Text.isBlank c = true) → EndsArgument next →
    ∃ ts, Reads (gap ++ text) ts next ∧ IsArgument ts ∧ P ts

theorem ReadsArgument.mono {text : List Char} {P Q : List TokenTree → Prop} (h : ReadsArgument text P)
    (himp : ∀ ts, P ts → Q ts) : ReadsArgument text Q := by
  intro gap next hgap hnext
  obtain ⟨ts, hread, harg, hP⟩ := h gap next hgap hnext
  exact ⟨ts, hread, harg, himp ts hP⟩

/-! ## Lists of arguments -/

theorem isBlank_space : ∀ c ∈ [' '], Text.isBlank c = true :=
  List.forall_mem_singleton.mpr (by decide)

section

variable {α : Type} {text : α → List Char} {Is : α → List TokenTree → Prop}

/-- A written list of arguments is split into its arguments. -/
theorem reads_commaSeparated (trailing : Bool) {first : α} {rest : List α}
    (h : ∀ a ∈ first :: rest, ReadsArgument (text a) (Is a)) (gap : List Char)
    (hgap : ∀ c ∈ gap, Text.isBlank c = true) (next : List Char) :
    ∃ ts, Reads (gap ++ commaSeparated trailing ((first :: rest).map text)) ts (')' :: next) ∧
      AllFit ts ∧ List.Forall₂ Is (first :: rest) (splitArguments ts) := by
  induction rest generalizing first gap with
  | nil =>
    have hfirst := h first List.mem_cons_self
    cases trailing with
    | false =>
      obtain ⟨ts, hread, harg, hIs⟩ := hfirst gap (')' :: next) hgap ⟨next, .inr rfl⟩
      refine ⟨ts, by simpa [commaSeparated] using hread, harg.fits, ?_⟩
      rw [splitArguments_single harg.nonempty harg.no_comma]
      exact .cons hIs .nil
    | true =>
      obtain ⟨ts, hread, harg, hIs⟩ := hfirst gap (',' :: ')' :: next) hgap ⟨_, .inl rfl⟩
      have hcomma : Reads ([] ++ [',']) [.token (bareToken [] [','] .comma)] (')' :: next) :=
        Reads.comma (by simp)
      refine ⟨ts ++ [.token (bareToken [] [','] .comma)], ?_, ?_, ?_⟩
      · simpa [commaSeparated] using hread.append hcomma
      · exact allFit_append.mpr ⟨harg.fits, ⟨rfl, trivial⟩⟩
      · rw [splitArguments_comma harg.no_comma rfl]
        exact .cons hIs .nil
  | cons second rest ih =>
    -- what is behind the first comma is a list of its own, with a blank as its gap
    obtain ⟨us, hrest, hfits, hpieces⟩ :=
      ih (fun a ha => h a (List.mem_cons_of_mem first ha)) [' '] isBlank_space
    obtain ⟨ts, hread, harg, hIs⟩ := h first List.mem_cons_self gap
      (',' :: ([' '] ++ commaSeparated trailing ((second :: rest).map text) ++ ')' :: next)) hgap
      ⟨_, .inl rfl⟩
    have hcomma : Reads ([] ++ [',']) [.token (bareToken [] [','] .comma)]
        ([' '] ++ commaSeparated trailing ((second :: rest).map text) ++ ')' :: next) :=
      Reads.comma (by simp)
    refine ⟨ts ++ .token (bareToken [] [','] .comma) :: us, ?_, ?_, ?_⟩
    · have hall := hread.append (hcomma.append hrest)
      simpa [commaSeparated] using hall
    · exact allFit_append.mpr ⟨harg.fits, ⟨rfl, hfits⟩⟩
    · rw [splitArguments_comma harg.no_comma rfl]
      exact .cons hIs hpieces

/-- Parentheses with a list of arguments are read as a group. -/
theorem reads_parentheses (trailing : Bool) {args : List α}
    (h : ∀ a ∈ args, ReadsArgument (text a) (Is a)) (next : List Char) :
    ∃ opening closing inner,
      Reads ('(' :: (commaSeparated trailing (args.map text) ++ [')']))
        [.group opening closing .paren inner] next ∧
      (TokenTree.group opening closing .paren inner).Fits ∧ List.Forall₂ Is args (splitArguments inner) := by
  have hinner : ∃ inner, Reads (commaSeparated trailing (args.map text)) inner (')' :: next) ∧
      AllFit inner ∧ List.Forall₂ Is args (splitArguments inner) := by
    cases args with
    | nil => exact ⟨[], Reads.nil _, trivial, .nil⟩
    | cons first rest => exact reads_commaSeparated trailing h [] (by simp) next
  obtain ⟨inner, hread, hfits, hpieces⟩ := hinner
  have hempty : ∀ c ∈ ([] : List Char), Text.isBlank c = true := by simp
  exact ⟨_, _, inner, Reads.group (d := .paren) hempty hempty hread, ⟨rfl, rfl, hfits⟩, hpieces⟩

/-- A call of a name is read as the name and a group. -/
theorem reads_callText {name gap : List Char} (hname : isNameText name = true)
    (hgap : ∀ c ∈ gap, Text.isBlank c = true) (trailing : Bool) {args : List α}
    (h : ∀ a ∈ args, ReadsArgument (text a) (Is a)) (next : List Char) :
    ∃ opening closing inner,
      Reads (gap ++ callText name (args.map text) trailing)
        [.token (bareToken gap name .name), .group opening closing .paren inner] next ∧
      (TokenTree.group opening closing .paren inner).Fits ∧ List.Forall₂ Is args (splitArguments inner) := by
  obtain ⟨opening, closing, inner, hgroup, hfits, hpieces⟩ := reads_parentheses trailing h next
  have hread := (Reads.nameText hgap hname (endsName_paren _)).append hgroup
  refine ⟨opening, closing, inner, ?_, hfits, hpieces⟩
  simpa [callText] using hread

end

/-- A call of a name is one argument. -/
theorem isArgument_call {gap name : List Char} {g : TokenTree} (hfits : g.Fits) (hgroup : g.isComma = false) :
    IsArgument [.token (bareToken gap name .name), g] where
  fits := ⟨rfl, hfits, trivial⟩
  nonempty := by simp
  no_comma := by simpa [TokenTree.isComma, bareToken] using hgroup

/-! ## Decimal digits -/

theorem digitValue?_of_isDigit {c : Char} (h : c.isDigit = true) :
    digitValue? 10 c = some (c.toNat - '0'.toNat) :=
  of_isDigit (P := fun d => digitValue? 10 d = some (d.toNat - '0'.toNat)) (by decide) h

theorem toLower_of_isDigit {c : Char} (h : c.isDigit = true) : c.toLower = c :=
  of_isDigit (P := fun d => d.toLower = d) (by decide) h

theorem readDigits?_digits {cs : List Char} (h : ∀ c ∈ cs, c.isDigit = true) (acc : Nat) :
    readDigits? 10 cs.length acc cs = some (Nat.ofDigitChars 10 cs acc) := by
  induction cs generalizing acc with
  | nil => rfl
  | cons c cs ih =>
    have hc := h c List.mem_cons_self
    rw [List.length_cons, readDigits?, digitValue?_of_isDigit hc, Option.bind_some,
      ih fun d hd => h d (List.mem_cons_of_mem c hd), Nat.ofDigitChars_cons, Nat.mul_comm]

theorem isDigit_of_mem_toDigits {n : Nat} {c : Char} (h : c ∈ Nat.toDigits 10 n) : c.isDigit = true :=
  Nat.isDigit_of_mem_toDigits (by decide) (by decide) h

/-- The decimal digits of a number other than zero do not begin with a zero. -/
theorem head?_toDigits {n : Nat} (hn : 0 < n) : (Nat.toDigits 10 n).head? ≠ some '0' := by
  induction n using Nat.strongRecOn with
  | ind n ih =>
    by_cases hsmall : n < 10
    · have hall : ∀ m < 10, 0 < m → (Nat.toDigits 10 m).head? ≠ some '0' := by decide
      exact hall n hsmall hn
    · have hten : 10 ≤ n := Nat.le_of_not_lt hsmall
      have hhead := ih (n / 10) (by omega) (by omega)
      rw [Nat.toDigits_of_base_le (by decide) hten, List.head?_append]
      cases hdigits : Nat.toDigits 10 (n / 10) with
      | nil => exact absurd hdigits Nat.toDigits_ne_nil
      | cons c cs => rwa [hdigits] at hhead

/-- The decimal digits of a number are read back as the number. -/
theorem integerValue?_toDigits (n : Nat) : integerValue? (Nat.toDigits 10 n) = some n := by
  have hfilter : (Nat.toDigits 10 n).filter (· != '_') = Nat.toDigits 10 n := by
    refine List.filter_eq_self.mpr fun c hc => ?_
    have hunderscore : c ≠ '_' := by
      rintro rfl
      exact absurd (isDigit_of_mem_toDigits hc) (by decide)
    simpa using hunderscore
  have hlower : (Nat.toDigits 10 n).map Char.toLower = Nat.toDigits 10 n := by
    rw [List.map_congr_left fun c hc => toLower_of_isDigit (isDigit_of_mem_toDigits hc), List.map_id']
  have hdecimal : numberIn? 10 (Nat.toDigits 10 n) = some n := by
    rw [numberIn?, if_neg (by simp [Nat.toDigits_ne_nil]),
      readDigits?_digits fun c hc => isDigit_of_mem_toDigits hc, Nat.ofDigitChars_ten_toDigits]
  rw [integerValue?, hfilter, hlower]
  by_cases hn : 0 < n
  · have hhead := head?_toDigits hn
    split
    · rename_i heq
      simp [heq] at hhead
    · rename_i heq
      simp [heq] at hhead
    · rename_i heq
      simp [heq] at hhead
    · rename_i heq
      simp [heq] at hhead
    · exact hdecimal
  · obtain rfl : n = 0 := by omega
    exact hdecimal

/-! ## Roles -/

/-- What an argument is to the call around it. -/
inductive Role
  | value (v : Value)
  | decorator
  | entry (e : Entry)
  | function (arity : Option Nat) (declared : List Declaration)
  | other

namespace Role

def entry? : Role → Option Entry
  | entry e => some e
  | _ => none

def function? : Role → Option (Option Nat × List Declaration)
  | function arity declared => some (arity, declared)
  | _ => none

end Role

/-- What a call takes from a function literal: its arity, and what its body declares. -/
def FunctionLiteral.meaning (f : FunctionLiteral) : Option Nat × List Declaration :=
  (f.arity, (scanTrees .other f.body).declarations)

/-- An argument is what its role says, and nothing else. -/
structure HasRole (r : Role) (ts : List TokenTree) : Prop where
  value : ∀ v, r = .value v → readValue ts = v ∧ isDecorator ts = false
  decorator : r = .decorator → isDecorator ts = true
  entry : entry? ts = r.entry?
  function : (functionLiteral? ts).map FunctionLiteral.meaning = r.function?

/-- A value that is no decorator, function literal or entry. -/
theorem HasRole.of_value {v : Value} {ts : List TokenTree} (hvalue : readValue ts = v)
    (hdecorator : isDecorator ts = false) (hfunction : functionLiteral? ts = none)
    (hentry : Source.entry? ts = none) : HasRole (.value v) ts where
  value := by
    rintro w ⟨⟩
    exact ⟨hvalue, hdecorator⟩
  decorator := by simp
  entry := hentry
  function := by rw [hfunction]; rfl

/-! ## Literals -/

/-- A token that is neither a bracket nor a comma is an argument. -/
theorem isArgument_token {t : Token} (hbracket : t.kind.isBracket = false) (hcomma : t.kind ≠ .comma) :
    IsArgument [.token t] where
  fits := ⟨hbracket, trivial⟩
  nonempty := by simp
  no_comma := by simpa [TokenTree.isComma] using hcomma

theorem StringText.reads (s : StringText) {gap : List Char} (hgap : ∀ d ∈ gap, Text.isBlank d = true)
    (next : List Char) :
    Reads (gap ++ s.text) [.token (bareToken gap s.text (.string s.value))] next := by
  obtain ⟨value, text, writes⟩ := s
  cases writes with
  | interpreted spells =>
    have hread : Reads _ _ next := Reads.interpreted hgap spells
    rwa [String.ofList_toList] at hread
  | raw no_quote no_return =>
    have hread : Reads _ _ next := Reads.raw hgap no_quote no_return
    rwa [String.ofList_toList] at hread

/-- A written string is read as that string. -/
theorem StringText.readsArgument (s : StringText) :
    ReadsArgument s.text (HasRole (.value (.str s.value))) := by
  intro gap next hgap hnext
  refine ⟨_, s.reads hgap next, isArgument_token rfl (by simp [bareToken]), ?_⟩
  exact .of_value rfl rfl rfl rfl

/-- One of the three constant names is read as what it names. -/
theorem readsArgument_constant {text : List Char} {v : Value} (hname : isNameText text = true)
    (hdecorator : String.ofList text ∉ decorators)
    (hliteral : ∀ gap, (bareToken gap text .name).literal? false = some v) :
    ReadsArgument text (HasRole (.value v)) := by
  intro gap next hgap hnext
  refine ⟨_, Reads.nameText hgap hname hnext.endsName, isArgument_token rfl (by simp [bareToken]), ?_⟩
  refine .of_value ?_ ?_ rfl rfl
  · rw [readValue, literal?, hliteral gap, Option.getD_some]
  · simpa [isDecorator, Token.isDecorator, bareToken] using hdecorator

/-- Decimal digits are one integer token. -/
theorem reads_toDigits (n : Nat) {gap next : List Char} (hgap : ∀ d ∈ gap, Text.isBlank d = true)
    (hnext : EndsNumber next) :
    Reads (gap ++ Nat.toDigits 10 n) [.token (bareToken gap (Nat.toDigits 10 n) .integer)] next := by
  have hdigits : ∀ c ∈ Nat.toDigits 10 n, c.isDigit = true := fun c hc => isDigit_of_mem_toDigits hc
  cases htext : Nat.toDigits 10 n with
  | nil => exact absurd htext Nat.toDigits_ne_nil
  | cons c cs =>
    rw [htext] at hdigits
    exact Reads.digits hgap (hdigits c List.mem_cons_self)
      (fun d hd => hdigits d (List.mem_cons_of_mem c hd)) hnext

/-- Digits behind a minus sign are two tokens. -/
theorem reads_minus_toDigits (n : Nat) {gap next : List Char} (hgap : ∀ d ∈ gap, Text.isBlank d = true)
    (hnext : EndsNumber next) :
    Reads (gap ++ '-' :: Nat.toDigits 10 n)
      [.token (bareToken gap ['-'] (.symbol '-')), .token (bareToken [] (Nat.toDigits 10 n) .integer)] next := by
  have hminus : Reads (gap ++ ['-']) [.token (bareToken gap ['-'] (.symbol '-'))]
      ([] ++ Nat.toDigits 10 n ++ next) := Reads.minus hgap
  have hdigits := reads_toDigits n (show ∀ d ∈ ([] : List Char), _ by simp) hnext
  simpa using hminus.append hdigits

theorem isArgument_minus (gap digits : List Char) :
    IsArgument [.token (bareToken gap ['-'] (.symbol '-')), .token (bareToken [] digits .integer)] where
  fits := ⟨rfl, rfl, trivial⟩
  nonempty := by simp
  no_comma := by simp [TokenTree.isComma, bareToken]

theorem literal?_toDigits {n : Nat} (hn : n ≤ greatestInteger) (gap : List Char) (negative : Bool) :
    (bareToken gap (Nat.toDigits 10 n) .integer).literal? negative =
      some (.int (Int64.ofInt (if negative then -n else n))) := by
  have hfilter : (some n).filter (· ≤ greatestInteger) = some n := by
    rw [Option.filter_some, if_pos (decide_eq_true hn)]
  simp [Token.literal?, bareToken, String.toList_ofList, integerValue?_toDigits, hfilter]

/-- A written integer is read as that integer, with a sign of its own if it is negative. -/
theorem readsArgument_int {n : Int64} (above : Int64.minValue < n) :
    ReadsArgument (toString n.toInt).toList (HasRole (.value (.int n))) := by
  have hupper : n.toInt ≤ 2 ^ 63 - 1 := by
    have := n.toInt_lt
    omega
  have hlower : -(2 ^ 63 : Int) < n.toInt := by
    have := Int64.lt_iff_toInt_lt.mp above
    rwa [Int64.toInt_minValue] at this
  have hback : Int64.ofInt n.toInt = n := Int64.ofInt_toInt n
  intro gap next hgap hnext
  cases hn : n.toInt with
  | ofNat m =>
    rw [hn] at hupper hback
    have hm : m ≤ greatestInteger := by
      rw [Int.ofNat_eq_natCast] at hupper
      simp only [greatestInteger]
      omega
    have htext : (toString (Int.ofNat m)).toList = Nat.toDigits 10 m := Nat.toList_repr
    rw [htext]
    refine ⟨_, reads_toDigits m hgap hnext.endsNumber, isArgument_token rfl (by simp [bareToken]), ?_⟩
    refine .of_value ?_ rfl rfl rfl
    rw [readValue, literal?, literal?_toDigits hm, Option.getD_some, ← hback]
    rfl
  | negSucc m =>
    -- the minus sign is a token of its own, and the digits alone must have room
    rw [hn] at hlower hback
    have hm : m + 1 ≤ greatestInteger := by
      simp only [greatestInteger]
      omega
    have htext : (toString (Int.negSucc m)).toList = '-' :: Nat.toDigits 10 (m + 1) := by
      show ("-" ++ (m + 1).repr).toList = _
      rw [String.toList_append, Nat.toList_repr]
      rfl
    rw [htext]
    refine ⟨_, reads_minus_toDigits (m + 1) hgap hnext.endsNumber, isArgument_minus _ _, ?_⟩
    refine .of_value ?_ rfl rfl rfl
    have hsign : (bareToken gap ['-'] (.symbol '-')).isSymbol '-' = true := rfl
    rw [readValue, literal?, hsign, Bool.true_or, if_pos rfl, literal?_toDigits hm, ← hback]
    rfl

theorem Argument.readsArgument (a : Argument) : ReadsArgument a.text (HasRole (.value a.value)) := by
  cases a with
  | int n above => exact readsArgument_int above
  | str s => exact s.readsArgument
  | bool b =>
    cases b with
    | true => exact readsArgument_constant (by decide) (by decide) fun _ => rfl
    | false => exact readsArgument_constant (by decide) (by decide) fun _ => rfl
  | nil => exact readsArgument_constant (by decide) (by decide) fun _ => rfl

/-! ## Decorators -/

/-- A dot ends a name. -/
theorem endsName_selectors (selectors : List Identifier) {next : List Char} (hnext : EndsName next) :
    EndsName (selectors.flatMap (fun x => '.' :: x.text) ++ next) := by
  cases selectors with
  | nil => exact hnext
  | cons x rest =>
    intro c hc
    cases hc
    decide

theorem Identifier.text_eq_cons (x : Identifier) : ∃ c cs, x.text = c :: cs ∧ startsName c = true := by
  obtain ⟨text, isName⟩ := x
  cases text with
  | nil => cases isName
  | cons c cs =>
    simp only [isNameText, Bool.and_eq_true] at isName
    exact ⟨c, cs, rfl, isName.1⟩

theorem reads_selectors (selectors : List Identifier) {next : List Char} (hnext : EndsName next) :
    ∃ ts, Reads (selectors.flatMap fun x => '.' :: x.text) ts next ∧ AllFit ts ∧
      ∀ t ∈ ts, t.isComma = false := by
  induction selectors with
  | nil => exact ⟨[], Reads.nil next, trivial, by simp⟩
  | cons x rest ih =>
    obtain ⟨ts, hrest, hfits, hno⟩ := ih
    obtain ⟨c, cs, hx, hc⟩ := x.text_eq_cons
    have hempty : ∀ d ∈ ([] : List Char), Text.isBlank d = true := by simp
    have hname := (Reads.nameText hempty x.isName (endsName_selectors rest hnext)).append hrest
    have hdot : Reads ['.'] [.token (bareToken [] ['.'] (.symbol '.'))]
        (([] ++ x.text ++ rest.flatMap fun x => '.' :: x.text) ++ next) := by
      rw [List.nil_append, hx]
      exact Reads.dot hempty hc
    refine ⟨.token (bareToken [] ['.'] (.symbol '.')) :: .token (bareToken [] x.text .name) :: ts, ?_,
      ⟨rfl, rfl, hfits⟩, ?_⟩
    · simpa using hdot.append hname
    · simp only [List.mem_cons]
      rintro t (rfl | rfl | ht)
      · rfl
      · rfl
      · exact hno t ht

theorem reads_selectedText (first : Identifier) (selectors : List Identifier) {gap next : List Char}
    (hgap : ∀ d ∈ gap, Text.isBlank d = true) (hnext : EndsName next) :
    ∃ ts, Reads (gap ++ selectedText first selectors) ts next ∧ IsArgument ts := by
  obtain ⟨ts, hrest, hfits, hno⟩ := reads_selectors selectors hnext
  have hname := Reads.nameText hgap first.isName (endsName_selectors selectors hnext)
  refine ⟨.token (bareToken gap first.text .name) :: ts, ?_, ⟨⟨rfl, hfits⟩, by simp, ?_⟩⟩
  · simpa [selectedText] using hname.append hrest
  · simp only [List.mem_cons]
    rintro t (rfl | ht)
    · rfl
    · exact hno t ht

mutual

theorem Operand.readsArgument (o : Operand) : ReadsArgument o.text fun _ => True := by
  cases o with
  | literal a => exact a.readsArgument.mono fun _ _ => trivial
  | name first selectors =>
    intro gap next hgap hnext
    obtain ⟨ts, hread, harg⟩ := reads_selectedText first selectors hgap hnext.endsName
    exact ⟨ts, hread, harg, trivial⟩
  | call first selectors args trailing =>
    intro gap next hgap hnext
    obtain ⟨opening, closing, inner, hgroup, hfits, _⟩ := reads_parentheses trailing args.readsArguments next
    rw [List.map_id] at hgroup
    obtain ⟨ts, hread, harg⟩ := reads_selectedText first selectors hgap (endsName_paren _)
    refine ⟨ts ++ [.group opening closing .paren inner], ?_, ⟨?_, by simp, ?_⟩, trivial⟩
    · simpa [Operand.text, callText] using hread.append hgroup
    · exact allFit_append.mpr ⟨harg.fits, hfits, trivial⟩
    · simp only [List.mem_append, List.mem_singleton]
      rintro t (ht | rfl)
      · exact harg.no_comma t ht
      · rfl

theorem OperandList.readsArguments (args : OperandList) :
    ∀ text ∈ args.texts, ReadsArgument (id text) fun _ => True := by
  cases args with
  | nil => simp [OperandList.texts]
  | cons first rest =>
    intro text htext
    rcases List.mem_cons.mp htext with rfl | htext
    · exact first.readsArgument
    · exact rest.readsArguments text htext

end

/-- A call is no function literal, since it has no body. -/
theorem functionLiteral?_call (t opening closing : Token) (inner : List TokenTree) :
    functionLiteral? [.token t, .group opening closing .paren inner] = none := by
  rw [functionLiteral?]
  split <;> rfl

/-- The name of a decorator is a name, and does not declare an entry. -/
theorem isNameText_of_mem_decorators :
    ∀ name ∈ decorators, isNameText name.toList = true ∧ plainKind? (baseName name) ≠ some .entry := by
  decide

theorem Decorator.readsArgument (d : Decorator) : ReadsArgument d.text (HasRole .decorator) := by
  obtain ⟨name, mem, args, trailing⟩ := d
  obtain ⟨hname, hkind⟩ := isNameText_of_mem_decorators name mem
  have hdecorator : ∀ gap, (bareToken gap name.toList .name).isDecorator = true := by
    intro gap
    simpa [Token.isDecorator, bareToken] using mem
  have hentry : ∀ gap, (bareToken gap name.toList .name).callKind? ≠ some .entry := by
    intro gap
    simpa [Token.callKind?, bareToken] using hkind
  intro gap next hgap hnext
  cases args with
  | none =>
    refine ⟨_, Reads.nameText hgap hname hnext.endsName, isArgument_token rfl (by simp [bareToken]), ?_⟩
    exact ⟨by simp, fun _ => hdecorator gap, rfl, rfl⟩
  | some args =>
    obtain ⟨opening, closing, inner, hread, hfits, _⟩ :=
      reads_callText hname hgap trailing args.readsArguments next
    rw [List.map_id] at hread
    refine ⟨_, hread, isArgument_call hfits rfl, by simp, fun _ => hdecorator gap, ?_, ?_⟩
    · rw [Source.entry?, if_neg (hentry gap)]
      rfl
    · rw [functionLiteral?_call]
      rfl

/-! ## Entries -/

/-- A name that declares is a name, with a marker or without, and declares what it should. -/
theorem plainKind?_of_mem_declaringNames (k : CallKind) (marker : Option Marker) :
    ∀ word ∈ declaringNames k,
      isNameText ((marker.map Marker.letter).toList ++ word.toList) = true ∧
      plainKind? (baseName (String.ofList ((marker.map Marker.letter).toList ++ word.toList))) = some k := by
  cases k <;> rcases marker with _ | _ | _ | _ <;> decide

theorem CallName.isNameText_text {k : CallKind} (name : CallName k) : isNameText name.text = true :=
  (plainKind?_of_mem_declaringNames k name.marker name.word name.mem).1

theorem CallName.callKind? {k : CallKind} (name : CallName k) (gap : List Char) :
    (bareToken gap name.text .name).callKind? = some k :=
  (plainKind?_of_mem_declaringNames k name.marker name.word name.mem).2

def RowItem.role : RowItem → Role
  | argument a => .value a.value
  | decorator _ => .decorator

theorem RowItem.readsArgument (i : RowItem) : ReadsArgument i.text (HasRole i.role) := by
  cases i with
  | argument a => exact a.readsArgument
  | decorator d => exact d.readsArgument

/-- The arguments of an entry are the values among its items. -/
theorem values_of_roles {items : List RowItem} {pieces : List (List TokenTree)}
    (h : List.Forall₂ (fun i => HasRole (RowItem.role i)) items pieces) :
    (pieces.filter fun p => !isDecorator p).map readValue = items.filterMap RowItem.value? := by
  induction h with
  | nil => rfl
  | @cons i piece items pieces hrole _ ih =>
    cases i with
    | argument a =>
      obtain ⟨hvalue, hdecorator⟩ := hrole.value a.value rfl
      rw [List.filter_cons_of_pos (by simp [hdecorator]), List.map_cons, ih, hvalue]
      rfl
    | decorator d =>
      have hdecorator := hrole.decorator rfl
      rw [List.filter_cons_of_neg (by simp [hdecorator]), ih]
      rfl

/-- The description of an entry as a value. -/
def Row.descriptionValue (r : Row) : Value :=
  match r.description with
  | some s => .str s.value
  | none => .nil

theorem Row.readsArgument_description (r : Row) :
    ReadsArgument r.descriptionText (HasRole (.value r.descriptionValue)) := by
  unfold Row.descriptionText Row.descriptionValue
  cases r.description with
  | some s => exact s.readsArgument
  | none => exact Argument.nil.readsArgument

theorem Row.entryOf_eq (r : Row) {description : List TokenTree} {pieces : List (List TokenTree)}
    (hdescription : HasRole (.value r.descriptionValue) description)
    (h : List.Forall₂ (fun i => HasRole (RowItem.role i)) r.items pieces) :
    entryOf description pieces = r.entry := by
  have hvalue := (hdescription.value _ rfl).1
  rw [entryOf, values_of_roles h, hvalue, Row.descriptionValue, Row.entry]
  cases r.description <;> rfl

/-- A call of an entry is read as the entry of what its arguments are read as. -/
theorem readsArgument_entryCall {α : Type} {text : α → List Char} {Is : α → List TokenTree → Prop}
    (name : CallName .entry) {first : α} {rest : List α}
    (h : ∀ a ∈ first :: rest, ReadsArgument (text a) (Is a)) (trailing : Bool) :
    ReadsArgument (callText name.text ((first :: rest).map text) trailing) fun ts =>
      ∃ description pieces, Is first description ∧ List.Forall₂ Is rest pieces ∧
        HasRole (.entry (entryOf description pieces)) ts := by
  intro gap next hgap hnext
  obtain ⟨opening, closing, inner, hread, hfits, hpieces⟩ :=
    reads_callText name.isNameText_text hgap trailing h next
  obtain ⟨description, pieces, hdescription, hitems, hsplit⟩ := List.forall₂_cons_left_iff.mp hpieces
  refine ⟨_, hread, isArgument_call hfits rfl, description, pieces, hdescription, hitems, by simp, by simp, ?_, ?_⟩
  · rw [Source.entry?, if_pos (name.callKind? gap), hsplit]
    rfl
  · rw [functionLiteral?_call]
    rfl

/-- A written entry is read as that entry. -/
theorem Row.readsArgument (r : Row) : ReadsArgument r.text (HasRole (.entry r.entry)) := by
  have hargs : ∀ a ∈ (r.descriptionText, Role.value r.descriptionValue) ::
      r.items.map fun i => (i.text, i.role), ReadsArgument (Prod.fst a) (HasRole a.2) := by
    intro a ha
    rcases List.mem_cons.mp ha with rfl | ha
    · exact r.readsArgument_description
    · obtain ⟨i, _, rfl⟩ := List.mem_map.mp ha
      exact i.readsArgument
  have hread := readsArgument_entryCall r.name hargs r.trailing
  rw [List.map_cons, List.map_map] at hread
  refine hread.mono ?_
  rintro ts ⟨description, pieces, hdescription, hitems, hrole⟩
  rw [List.forall₂_map_left_iff] at hitems
  rwa [r.entryOf_eq hdescription hitems] at hrole

def TableItem.role : TableItem → Role
  | row r => .entry r.entry
  | decorator _ => .decorator

theorem TableItem.readsArgument (i : TableItem) : ReadsArgument i.text (HasRole i.role) := by
  cases i with
  | row r => exact r.readsArgument
  | decorator d => exact d.readsArgument

end SpecForest.Source

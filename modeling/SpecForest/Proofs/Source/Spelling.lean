import Mathlib.Algebra.Group.Nat.Defs
import SpecForest.Source.Quoted

/-!
# Spellings of characters and strings

Between quotes a character can stand for itself, behind a backslash as a letter or as the quote, or as its
code in digits. Every spelling is read back as the character, so a string spelled character by character is
read back whole, whatever spelling each of its characters has.
-/

namespace SpecForest.Source

/-! ## Digits -/

/-- A digit, in one of the two cases if it is a letter. -/
def digitOf (upper : Bool) (n : Nat) : Char :=
  if upper then n.digitChar.toUpper else n.digitChar

/-- The last digits of a number, as many as there are choices of case. -/
def writeDigits (base : Nat) : List Bool → Nat → List Char
  | [], _ => []
  | upper :: rest, n => digitOf upper (n / base ^ rest.length % base) :: writeDigits base rest n

@[simp] theorem length_writeDigits (base : Nat) (uppers : List Bool) (n : Nat) :
    (writeDigits base uppers n).length = uppers.length := by
  induction uppers with
  | nil => rfl
  | cons upper rest ih => simp [writeDigits, ih]

theorem digitValue?_digitOf_all :
    ∀ base ≤ 16, ∀ n < base, ∀ upper : Bool, digitValue? base (digitOf upper n) = some n := by
  decide

theorem digitValue?_digitOf {base n : Nat} (hbase : base ≤ 16) (hn : n < base) (upper : Bool) :
    digitValue? base (digitOf upper n) = some n :=
  digitValue?_digitOf_all base hbase n hn upper

theorem readDigits?_writeDigits {base : Nat} (hpos : 0 < base) (hbase : base ≤ 16) (uppers : List Bool)
    (acc n : Nat) (rest : List Char) :
    readDigits? base uppers.length acc (writeDigits base uppers n ++ rest) =
      some (acc * base ^ uppers.length + n % base ^ uppers.length) := by
  induction uppers generalizing acc with
  | nil => simp [readDigits?, Nat.mod_one]
  | cons upper uppers ih =>
    have hdigit : n / base ^ uppers.length % base < base := Nat.mod_lt _ hpos
    simp only [List.length_cons, writeDigits, List.cons_append, readDigits?,
      digitValue?_digitOf hbase hdigit, Option.bind_some, ih]
    have hmod := Nat.mod_pow_succ (x := n) (b := base) (k := uppers.length)
    rw [hmod, Nat.pow_succ, Nat.add_mul, Nat.mul_assoc, Nat.mul_comm base,
      Nat.mul_comm (n / base ^ uppers.length % base)]
    congr 1
    omega

/-! ## Characters -/

/-- The letters that stand for a character behind a backslash, with that character. The backslash stands for
itself. -/
def letterEscapes : List (Char × Char) :=
  [('a', '\x07'), ('b', '\x08'), ('f', '\x0c'), ('n', '\n'), ('r', '\r'), ('t', '\t'), ('v', '\x0b'),
    ('\\', '\\')]

/-- The ways to write a character between quotes of a kind. -/
inductive Spells (quote : Char) : Char → List Char → Prop
  | plain {c : Char} (not_quote : c ≠ quote) (not_backslash : c ≠ '\\') (not_newline : c ≠ '\n') :
      Spells quote c [c]
  | letter {letter c : Char} (mem : (letter, c) ∈ letterEscapes) : Spells quote c ['\\', letter]
  | quote : Spells quote quote ['\\', quote]
  | octal {c : Char} {uppers : List Bool} (length_eq : uppers.length = 3) (small : c.toNat < 0x80) :
      Spells quote c ('\\' :: writeDigits 8 uppers c.toNat)
  | hex {c : Char} {uppers : List Bool} (length_eq : uppers.length = 2) (small : c.toNat < 0x80) :
      Spells quote c ('\\' :: 'x' :: writeDigits 16 uppers c.toNat)
  | short {c : Char} {uppers : List Bool} (length_eq : uppers.length = 4) (small : c.toNat ≤ 0xFFFF) :
      Spells quote c ('\\' :: 'u' :: writeDigits 16 uppers c.toNat)
  | long {c : Char} {uppers : List Bool} (length_eq : uppers.length = 8) :
      Spells quote c ('\\' :: 'U' :: writeDigits 16 uppers c.toNat)

/-- The two kinds of quotes between which escapes are read. -/
def IsQuote (quote : Char) : Prop := quote = '"' ∨ quote = '\''

theorem charOfCode?_toNat (c : Char) : charOfCode? c.toNat = some c := by
  have hvalid : c.toNat.isValidChar := c.valid
  simp [charOfCode?, hvalid]

theorem simpleEscape?_letter : ∀ e ∈ letterEscapes, ∀ quote, simpleEscape? quote e.1 = some e.2 := by
  simp [letterEscapes, simpleEscape?]

theorem simpleEscape?_quote {quote : Char} (hq : IsQuote quote) :
    simpleEscape? quote quote = some quote := by
  rcases hq with rfl | rfl <;> rfl

theorem toNat_lt_pow_eight (c : Char) : c.toNat < 16 ^ 8 := by
  have hvalid : c.toNat.isValidChar := c.valid
  rcases hvalid with h | ⟨_, h⟩ <;> omega

/-! ## Codes -/

/-- The letters behind a backslash that announce hexadecimal digits, with the number of digits. -/
def hexLetters : List (Char × Nat) := [('x', 2), ('u', 4), ('U', 8)]

/-- The ways to write a code behind a backslash: three octal digits, or a letter and the hexadecimal digits that it
announces. Not every code that can be written is the code of a character. -/
inductive WritesCode : Nat → List Char → Prop
  | octal {n : Nat} {uppers : List Bool} (length_eq : uppers.length = 3) (small : n < 8 ^ 3) :
      WritesCode n (writeDigits 8 uppers n)
  | hex {n : Nat} {letter : Char} {uppers : List Bool} (announces : (letter, uppers.length) ∈ hexLetters)
      (small : n < 16 ^ uppers.length) : WritesCode n (letter :: writeDigits 16 uppers n)

/-- The first of three octal digits announces two more. -/
theorem codeEscape?_digitOf {d : Nat} (hd : d < 8) (upper : Bool) :
    codeEscape? (digitOf upper d) = some ⟨2, 8, d⟩ := by
  have hother : ∀ d < 8, ∀ upper : Bool, digitOf upper d ∉ ['x', 'u', 'U'] := by decide
  have hletter := hother d hd upper
  simp only [List.mem_cons, List.not_mem_nil, or_false, not_or] at hletter
  simp [codeEscape?, hletter, digitValue?_digitOf (by decide) hd]

theorem simpleEscape?_digitOf {quote : Char} (hq : IsQuote quote) {d : Nat} (hd : d < 8) (upper : Bool) :
    simpleEscape? quote (digitOf upper d) = none := by
  have hall : ∀ d < 8, ∀ upper : Bool, simpleEscape? '"' (digitOf upper d) = none ∧
      simpleEscape? '\'' (digitOf upper d) = none := by
    decide
  rcases hq with rfl | rfl
  · exact (hall d hd upper).1
  · exact (hall d hd upper).2

theorem codeEscape?_hexLetter : ∀ e ∈ hexLetters, codeEscape? e.1 = some ⟨e.2, 16, 0⟩ := by
  simp [hexLetters, codeEscape?]

theorem simpleEscape?_hexLetter {quote : Char} (hq : IsQuote quote) :
    ∀ e ∈ hexLetters, simpleEscape? quote e.1 = none := by
  rcases hq with rfl | rfl <;> decide

/-- A code in digits is read as the character with that code, if there is one. -/
theorem readEscape_of_writesCode {quote : Char} (hq : IsQuote quote) {n : Nat} {escape : List Char}
    (h : WritesCode n escape) (rest : List Char) :
    readEscape quote (escape ++ rest) =
      match charOfCode? n with
      | none => .error .invalidCodePoint
      | some c => .ok (c, escape.length) := by
  cases h with
  | @octal uppers length_eq small =>
    obtain ⟨u, v, w, rfl⟩ : ∃ u v w, uppers = [u, v, w] := by
      match uppers, length_eq with
      | [u, v, w], _ => exact ⟨u, v, w, rfl⟩
    -- the first digit announces the other two, and is counted in front of them
    have hfirst : n / 8 ^ 2 % 8 < 8 := by omega
    have hread := readDigits?_writeDigits (by decide) (by decide : 8 ≤ 16) [v, w] (n / 8 ^ 2 % 8) n rest
    have hvalue : n / 8 ^ 2 % 8 * 8 ^ 2 + n % 8 ^ 2 = n := by omega
    simp only [List.length_cons, List.length_nil, Nat.zero_add, hvalue] at hread
    rw [writeDigits, List.cons_append, readEscape]
    cases hchar : charOfCode? n <;>
      simp only [List.length_cons, List.length_nil, Nat.zero_add, simpleEscape?_digitOf hq hfirst,
        codeEscape?_digitOf hfirst, hread, hchar, length_writeDigits, Nat.reduceAdd]
  | @hex letter uppers announces small =>
    have hsimple := simpleEscape?_hexLetter hq _ announces
    have hcode := codeEscape?_hexLetter _ announces
    have hread := readDigits?_writeDigits (by decide) (Nat.le_refl 16) uppers 0 n rest
    rw [Nat.zero_mul, Nat.zero_add, Nat.mod_eq_of_lt small] at hread
    rw [List.cons_append, readEscape]
    cases hchar : charOfCode? n <;>
      simp only [hsimple, hcode, hread, hchar, List.length_cons, length_writeDigits, Nat.add_comm 1]

theorem readEscape_toNat {quote c : Char} (hq : IsQuote quote) {escape : List Char}
    (h : WritesCode c.toNat escape) (rest : List Char) :
    readEscape quote (escape ++ rest) = .ok (c, escape.length) := by
  rw [readEscape_of_writesCode hq h, charOfCode?_toNat]

/-- Every spelling that begins with a backslash is read back. -/
theorem readEscape_of_spells {quote c : Char} {cs : List Char} (hq : IsQuote quote)
    (h : Spells quote c ('\\' :: cs)) (rest : List Char) :
    readEscape quote (cs ++ rest) = .ok (c, cs.length) := by
  generalize htext : '\\' :: cs = text at h
  cases h with
  | plain _ not_backslash _ =>
    cases htext
    exact absurd rfl not_backslash
  | letter mem =>
    cases htext
    simp [readEscape, simpleEscape?_letter _ mem quote]
  | quote =>
    cases htext
    simp [readEscape, simpleEscape?_quote hq]
  | octal length_eq small =>
    cases htext
    exact readEscape_toNat hq (.octal length_eq (by omega)) rest
  | hex length_eq small =>
    cases htext
    exact readEscape_toNat hq (.hex (by rw [length_eq]; decide) (by rw [length_eq]; omega)) rest
  | short length_eq small =>
    cases htext
    exact readEscape_toNat hq (.hex (by rw [length_eq]; decide) (by rw [length_eq]; omega)) rest
  | long length_eq =>
    cases htext
    exact readEscape_toNat hq
      (.hex (by rw [length_eq]; decide) (by rw [length_eq]; exact toNat_lt_pow_eight c)) rest

/-- Every character can be spelled. -/
theorem exists_spells (quote c : Char) : ∃ text, Spells quote c text :=
  ⟨'\\' :: 'U' :: writeDigits 16 (List.replicate 8 false) c.toNat, .long rfl⟩

/-! ## Strings -/

/-- The ways to write some characters between quotes of a kind. -/
inductive SpellsAll (quote : Char) : List Char → List Char → Prop
  | nil : SpellsAll quote [] []
  | cons {c : Char} {cs text rest : List Char} :
      Spells quote c text → SpellsAll quote cs rest → SpellsAll quote (c :: cs) (text ++ rest)

theorem exists_spellsAll (quote : Char) (cs : List Char) : ∃ text, SpellsAll quote cs text := by
  induction cs with
  | nil => exact ⟨[], .nil⟩
  | cons c cs ih =>
    obtain ⟨rest, hrest⟩ := ih
    obtain ⟨text, htext⟩ := exists_spells quote c
    exact ⟨text ++ rest, .cons htext hrest⟩

/-- A spelling is the character itself, or it begins with a backslash. -/
theorem Spells.plain_or_escape {quote c : Char} {text : List Char} (h : Spells quote c text) :
    (text = [c] ∧ c ≠ quote ∧ c ≠ '\\' ∧ c ≠ '\n') ∨ ∃ cs, text = '\\' :: cs := by
  cases h with
  | plain not_quote not_backslash not_newline =>
    exact .inl ⟨rfl, not_quote, not_backslash, not_newline⟩
  | letter => exact .inr ⟨_, rfl⟩
  | quote => exact .inr ⟨_, rfl⟩
  | octal => exact .inr ⟨_, rfl⟩
  | hex => exact .inr ⟨_, rfl⟩
  | short => exact .inr ⟨_, rfl⟩
  | long => exact .inr ⟨_, rfl⟩

/-- The reader of a string goes on behind an escape. -/
theorem readString_escape {c : Char} {escape rest : List Char}
    (h : readEscape '"' (escape ++ rest) = .ok (c, escape.length)) :
    readString ('\\' :: (escape ++ rest)) =
      (readString rest).map fun (cs, m) => (c :: cs, 1 + escape.length + m) := by
  have hne : ¬ '\\' = '"' := by decide
  rw [readString]
  simp only [hne, if_false, if_true, h, List.drop_left]

theorem readString_of_spellsAll {cs text : List Char} (h : SpellsAll '"' cs text) (rest : List Char) :
    readString (text ++ '"' :: rest) = .ok (cs, text.length + 1) := by
  induction h with
  | nil =>
    rw [List.nil_append, readString]
    rfl
  | @cons c cs text after htext _ ih =>
    rcases htext.plain_or_escape with ⟨rfl, hquote, hbackslash, hnewline⟩ | ⟨escape, rfl⟩
    · rw [List.append_assoc, List.singleton_append, readString]
      simp only [hquote, hbackslash, hnewline, if_false, ih, Except.map]
      simp only [List.length_append, List.length_cons, List.length_nil]
      rw [Nat.add_assoc, Nat.zero_add]
    · have hread := readEscape_of_spells (.inl rfl) htext (after ++ '"' :: rest)
      rw [List.append_assoc, List.cons_append, readString_escape hread, ih]
      simp only [Except.map, List.length_append, List.length_cons]
      congr 2
      omega

theorem takeWhile_append_cons {p : Char → Bool} {cs rest : List Char} {c : Char} (hcs : ∀ d ∈ cs, p d = true)
    (hc : p c = false) : (cs ++ c :: rest).takeWhile p = cs := by
  rw [List.takeWhile_append_of_pos hcs, List.takeWhile_cons_of_neg (by simp [hc]), List.append_nil]

/-- Between backquotes every character but two stands for itself. -/
theorem readRawString_append {cs : List Char} (hquote : '\x60' ∉ cs) (hreturn : '\r' ∉ cs)
    (rest : List Char) : readRawString (cs ++ '\x60' :: rest) = .ok (cs, cs.length + 1) := by
  have hbody : (cs ++ '\x60' :: rest).takeWhile (· != '\x60') = cs :=
    takeWhile_append_cons (fun d hd => by simpa using ne_of_mem_of_not_mem hd hquote) (by simp)
  have hfilter : cs.filter (· != '\r') = cs :=
    List.filter_eq_self.mpr fun d hd => by simpa using ne_of_mem_of_not_mem hd hreturn
  unfold readRawString
  simp [hbody, hfilter]

end SpecForest.Source

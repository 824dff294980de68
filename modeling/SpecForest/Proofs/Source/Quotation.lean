import SpecForest.Proofs.Source.Signs
import SpecForest.Proofs.Source.Terminated

/-!
# Literals between quotes

A string or a rune is one token that stands for what was spelled, whatever spelling each of its characters has. An
escape in digits stands for the character with that code, and it is a fault if no character has the code.

This is so in strings as well as in runes. A string whose bytes are spelled one by one is therefore read as one
character for each byte: it comes back exactly if all its characters are single bytes.
-/

namespace SpecForest.Source

/-! ## A token by itself -/

/-- A text is a single token, from its first character to its last. -/
def IsToken (text : List Char) (kind : TokenKind) : Prop :=
  let t : Token := ⟨"", String.ofList text, kind, .start⟩
  tokens (String.ofList text) = .ok [t] ∧ group [t] = .ok [.token t]

theorem isToken_of_readToken {c : Char} {rest : List Char} {kind : TokenKind} (hc : BeginsToken c)
    (hkind : kind.isBracket = false) (h : readToken c rest = .ok (kind, rest.length)) :
    IsToken (c :: rest) kind := by
  have hempty : ∀ d ∈ ([] : List Char), Text.isBlank d = true := by simp
  have hgap := gapLength_blanks hempty hc (rest ++ [])
  have hstep := tokensFrom_step .start hgap (by rw [List.append_nil]; exact h)
  rw [List.nil_append, List.append_nil, tokensFrom_blanks _ hempty] at hstep
  refine ⟨?_, (group_eq_ok_iff _ _).mpr ⟨⟨hkind, trivial⟩, rfl⟩⟩
  rw [tokens, String.toList_ofList, hstep]
  rfl

/-- Where a token cannot be read, there are no tokens. -/
theorem tokensFrom_of_fault (p : Position) {c : Char} {rest : List Char} {fault : Fault} (hc : BeginsToken c)
    (h : readToken c rest = .error fault) : tokensFrom p (c :: rest) = .error ⟨p, fault⟩ := by
  have hgap : gapLength (c :: rest) = .ok 0 := by
    exact gapLength_blanks (by simp : ∀ d ∈ ([] : List Char), Text.isBlank d = true) hc rest
  rw [tokensFrom, hgap]
  simp only [List.take_zero, Position.advance_nil]
  split
  · rename_i hdrop
    cases hdrop
  · rename_i d more hdrop
    cases hdrop
    simp only [h]

theorem readToken_string {cs rest : List Char} {n : Nat} (h : readString rest = .ok (cs, n)) :
    readToken '"' rest = .ok (.string (String.ofList cs), n) := by
  simp only [readToken, h, Except.map]

theorem readToken_rune {c : Char} {rest : List Char} {n : Nat} (h : readRune rest = .ok (c, n)) :
    readToken '\'' rest = .ok (.rune c, n) := by
  simp only [readToken, h, Except.map]

/-- Between double quotes, what is read to its end is a string. -/
theorem isToken_string {cs text : List Char} (h : readString (text ++ ['"']) = .ok (cs, text.length + 1)) :
    IsToken ('"' :: (text ++ ['"'])) (.string (String.ofList cs)) :=
  isToken_of_readToken ⟨by decide, by decide⟩ rfl (by rw [readToken_string h]; simp)

/-- Between backquotes every character but two stands for itself. -/
theorem isToken_raw {cs : List Char} (hquote : '\x60' ∉ cs) (hreturn : '\r' ∉ cs) :
    IsToken ('\x60' :: (cs ++ ['\x60'])) (.string (String.ofList cs)) := by
  refine isToken_of_readToken ⟨by decide, by decide⟩ rfl ?_
  simp only [readToken, readRawString_append hquote hreturn, Except.map, List.length_append, List.length_singleton]

/-- Every spelling of a character between single quotes is read as a rune. -/
theorem readRune_of_spells {c : Char} {text : List Char} (h : Spells '\'' c text) (rest : List Char) :
    readRune (text ++ '\'' :: rest) = .ok (c, text.length + 1) := by
  rcases h.plain_or_escape with ⟨rfl, hquote, hbackslash, hnewline⟩ | ⟨escape, rfl⟩
  · simp [readRune, closeRune, hquote, hbackslash, hnewline]
  · have hread := readEscape_of_spells (.inr rfl) h ('\'' :: rest)
    simp [readRune, closeRune, hread, Nat.add_comm 1]

/-! ## Codes without a character -/

/-- A fault behind the characters of a string is found. -/
theorem readString_error {body next : List Char} {fault : Fault} (h : IsQuotedText '"' body)
    (hnext : readString next = .error fault) : readString (body ++ next) = .error fault := by
  induction h with
  | nil => exact hnext
  | @cons a b ha hb ih =>
    cases ha with
    | @plain c not_quote not_backslash not_newline =>
      rw [List.append_assoc, List.singleton_append, readString]
      simp only [not_quote, not_backslash, not_newline, if_false, ih, Except.map]
    | @escape cs hescape =>
      obtain ⟨d, hread⟩ := readEscape_of_isEscape hescape (b ++ next)
      rw [List.append_assoc, List.cons_append, readString_escape hread, ih]
      rfl

theorem charOfCode?_eq_none {code : Nat} (h : 0xD800 ≤ code ∧ code ≤ 0xDFFF ∨ 0x10FFFF < code) :
    charOfCode? code = none := by
  refine if_neg fun hvalid => ?_
  rcases hvalid with hlow | ⟨hlow, hhigh⟩ <;> omega

/-- The code of a surrogate, or one that is too large, is a fault of the literal around it. -/
theorem tokensFrom_invalid_code {code : Nat} {escape : List Char} (h : WritesCode code escape)
    (hcode : 0xD800 ≤ code ∧ code ≤ 0xDFFF ∨ 0x10FFFF < code) (p : Position) (rest : List Char) :
    (∀ body, IsQuotedText '"' body →
      tokensFrom p ('"' :: (body ++ '\\' :: (escape ++ rest))) = .error ⟨p, .invalidCodePoint⟩) ∧
    tokensFrom p ('\'' :: '\\' :: (escape ++ rest)) = .error ⟨p, .invalidCodePoint⟩ := by
  have hread : ∀ {quote}, IsQuote quote → readEscape quote (escape ++ rest) = .error .invalidCodePoint := by
    intro quote hq
    rw [readEscape_of_writesCode hq h, charOfCode?_eq_none hcode]
  constructor
  · intro body hbody
    have hstring : readString ('\\' :: (escape ++ rest)) = .error .invalidCodePoint := by
      rw [readString]
      simp [hread (.inl rfl)]
    refine tokensFrom_of_fault p ⟨by decide, by decide⟩ ?_
    simp only [readToken, readString_error hbody hstring, Except.map]
  · refine tokensFrom_of_fault p ⟨by decide, by decide⟩ ?_
    simp only [readToken, readRune, if_true, hread (.inr rfl), Except.map]

/-- A string between double quotes, each of its characters spelled in one of the ways it has, is one token that stands
for the string. So is a string between backquotes, and a character between single quotes is one token that stands for
the character. The code of an escape always has room in 32 bits, and a code that no character has is a fault. -/
theorem quoted_literals_decode :
    (∀ (s : String) (text : List Char), SpellsAll '"' s.toList text →
      IsToken ('"' :: (text ++ ['"'])) (.string s)) ∧
    (∀ s : String, '\x60' ∉ s.toList → '\r' ∉ s.toList →
      IsToken ('\x60' :: (s.toList ++ ['\x60'])) (.string s)) ∧
    (∀ (c : Char) (text : List Char), Spells '\'' c text → IsToken ('\'' :: (text ++ ['\''])) (.rune c)) ∧
    (∀ (quote : Char) (cs : List Char), wordEscape quote cs = .ok (readEscape quote cs)) ∧
    ∀ (code : Nat) (escape : List Char), WritesCode code escape →
      0xD800 ≤ code ∧ code ≤ 0xDFFF ∨ 0x10FFFF < code → ∀ (p : Position) (rest : List Char),
        (∀ body, IsQuotedText '"' body →
          tokensFrom p ('"' :: (body ++ '\\' :: (escape ++ rest))) = .error ⟨p, .invalidCodePoint⟩) ∧
        tokensFrom p ('\'' :: '\\' :: (escape ++ rest)) = .error ⟨p, .invalidCodePoint⟩ := by
  refine ⟨?_, ?_, ?_, wordEscape_eq, fun code escape h hcode p rest => tokensFrom_invalid_code h hcode p rest⟩
  · intro s text h
    have hstring := isToken_string (readString_of_spellsAll h [])
    rwa [String.ofList_toList] at hstring
  · intro s hquote hreturn
    have hraw := isToken_raw hquote hreturn
    rwa [String.ofList_toList] at hraw
  · intro c text h
    exact isToken_of_readToken ⟨by decide, by decide⟩ rfl (by rw [readToken_rune (readRune_of_spells h [])]; simp)

/-- A string with a plain letter and four kinds of escapes, a rune in octal digits, and a surrogate in a string. -/
theorem quoted_literals_decode_mixed_escapes :
    IsToken "\"a\\\"\\n\\x4a\\U0001F600\"".toList (.string "a\"\nJ😀") ∧ IsToken "'\\051'".toList (.rune ')') ∧
      tokens "\"a\\uD800\"" = .error ⟨.start, .invalidCodePoint⟩ := by
  have hall := quoted_literals_decode
  refine ⟨hall.1 _ "a\\\"\\n\\x4a\\U0001F600".toList ?_, hall.2.2.1 ')' "\\051".toList ?_, ?_⟩
  · exact .cons (.plain (by decide) (by decide) (by decide)) (.cons .quote
      (.cons (@Spells.letter _ 'n' _ (by decide)) (.cons (@Spells.hex _ _ [false, false] rfl (by decide))
        (.cons (@Spells.long _ _ [false, false, false, false, true, false, false, false] rfl) .nil))))
  · exact @Spells.octal _ _ [false, false, false] rfl (by decide)
  · have hcode : WritesCode 0xD800 "uD800".toList :=
      @WritesCode.hex _ _ [true, false, false, false] (by decide) (by decide)
    have hbody : IsQuotedText '"' ['a'] := .cons (.plain (by decide) (by decide) (by decide)) .nil
    exact (hall.2.2.2.2 _ _ hcode (by decide) .start ['"']).1 _ hbody

/-! ## Strings byte by byte -/

/-- The bytes of a string in UTF-8. -/
def utf8Bytes (s : String) : List UInt8 := s.toUTF8.data.toList

/-- The ways to write some bytes, each as an escape of two hexadecimal digits. -/
inductive SpellsBytes : List UInt8 → List Char → Prop
  | nil : SpellsBytes [] []
  | cons {b : UInt8} {bs : List UInt8} {uppers : List Bool} {text : List Char} (length_eq : uppers.length = 2)
      (rest : SpellsBytes bs text) : SpellsBytes (b :: bs) ('\\' :: 'x' :: writeDigits 16 uppers b.toNat ++ text)

/-- An escape for a byte stands for the character with that code. -/
theorem readString_of_spellsBytes {bs : List UInt8} {text : List Char} (h : SpellsBytes bs text)
    (rest : List Char) : readString (text ++ '"' :: rest) = .ok (bs.map UInt8.toChar, text.length + 1) := by
  induction h with
  | nil =>
    rw [List.nil_append, readString]
    rfl
  | @cons b bs uppers text length_eq _ ih =>
    have hsmall : b.toNat < 16 ^ uppers.length := by
      rw [length_eq]
      exact b.toNat_lt
    have hcode : WritesCode b.toNat ('x' :: writeDigits 16 uppers b.toNat) :=
      .hex (by rw [length_eq]; decide) hsmall
    have hread : readEscape '"' (('x' :: writeDigits 16 uppers b.toNat) ++ (text ++ '"' :: rest)) =
        .ok (b.toChar, ('x' :: writeDigits 16 uppers b.toNat).length) :=
      readEscape_toNat (c := b.toChar) (.inl rfl) hcode _
    rw [List.append_assoc, List.cons_append, readString_escape hread, ih]
    simp only [Except.map, List.map_cons, List.length_append, List.length_cons]
    congr 2
    omega

theorem utf8Bytes_eq (s : String) : utf8Bytes s = s.toList.flatMap String.utf8EncodeChar := by
  have h : s.toUTF8 = s.toList.utf8Encode := by
    rw [String.toUTF8_eq_toByteArray, ← String.toByteArray_ofList, String.ofList_toList]
  rw [utf8Bytes, h, List.utf8Encode]
  simp

theorem length_le_byteCount (cs : List Char) : cs.length ≤ byteCount cs := by
  induction cs with
  | nil => exact Nat.le_refl 0
  | cons c cs ih =>
    have hpos := c.utf8Size_pos
    rw [List.length_cons, byteCount]
    omega

/-- Characters of which there are as many as bytes have one byte each. -/
theorem utf8Size_of_byteCount {cs : List Char} (h : byteCount cs = cs.length) : ∀ c ∈ cs, c.utf8Size = 1 := by
  induction cs with
  | nil => simp
  | cons c cs ih =>
    have hpos := c.utf8Size_pos
    have hle := length_le_byteCount cs
    rw [byteCount, List.length_cons] at h
    have hrest := ih (by omega)
    exact List.forall_mem_cons.mpr ⟨by omega, hrest⟩

theorem length_utf8Bytes (s : String) : (utf8Bytes s).length = byteCount s.toList := by
  rw [utf8Bytes_eq]
  induction s.toList with
  | nil => rfl
  | cons c cs ih => rw [List.flatMap_cons, List.length_append, String.length_utf8EncodeChar, ih, byteCount]

theorem utf8Size_eq_one {c : Char} : c.utf8Size = 1 ↔ c.toNat < 0x80 := by
  rw [Char.utf8Size_eq_one_iff, UInt32.le_iff_toNat_le]
  exact Nat.lt_succ_iff.symm

theorem map_toChar_utf8EncodeChar {c : Char} (h : c.toNat < 0x80) :
    (String.utf8EncodeChar c).map UInt8.toChar = [c] := by
  rw [String.utf8EncodeChar_eq_singleton (utf8Size_eq_one.mpr h), List.map_singleton]
  have hchar : c.val.toUInt8.toChar = c := by
    apply Char.ext
    apply UInt32.toNat.inj
    have hbyte : c.val.toNat < 256 := Nat.lt_trans h (by decide)
    show c.val.toUInt8.toUInt32.toNat = c.val.toNat
    rw [UInt8.toNat_toUInt32, UInt32.toNat_toUInt8, Nat.mod_eq_of_lt hbyte]
  rw [hchar]

/-- Characters for bytes are the characters of the string exactly if each of them has one byte. -/
theorem map_toChar_utf8Bytes (s : String) :
    String.ofList ((utf8Bytes s).map UInt8.toChar) = s ↔ ∀ c ∈ s.toList, c.toNat < 0x80 := by
  constructor
  · intro h
    have hlength : ((utf8Bytes s).map UInt8.toChar).length = s.toList.length := by
      rw [← String.toList_ofList (l := (utf8Bytes s).map UInt8.toChar), h]
    rw [List.length_map, length_utf8Bytes] at hlength
    intro c hc
    exact utf8Size_eq_one.mp (utf8Size_of_byteCount hlength c hc)
  · intro h
    have hchars : ∀ cs : List Char, (∀ c ∈ cs, c.toNat < 0x80) →
        (cs.flatMap String.utf8EncodeChar).map UInt8.toChar = cs := by
      intro cs hcs
      induction cs with
      | nil => rfl
      | cons c cs ih =>
        obtain ⟨hc, hrest⟩ := List.forall_mem_cons.mp hcs
        rw [List.flatMap_cons, List.map_append, map_toChar_utf8EncodeChar hc, ih hrest, List.singleton_append]
    rw [utf8Bytes_eq, hchars s.toList h, String.ofList_toList]

/-- A literal whose bytes are spelled is an argument. -/
theorem readsArgument_bytes {bs : List UInt8} {text : List Char} (h : SpellsBytes bs text) :
    ReadsArgument ('"' :: (text ++ ['"'])) (HasRole (.value (.str (String.ofList (bs.map UInt8.toChar))))) := by
  intro gap next hgap hnext
  have htoken : readToken '"' ((text ++ ['"']) ++ next) =
      .ok (.string (String.ofList (bs.map UInt8.toChar)), (text ++ ['"']).length) := by
    rw [List.append_assoc, List.singleton_append, readToken_string (readString_of_spellsBytes h next)]
    simp
  exact ⟨_, Reads.token hgap ⟨by decide, by decide⟩ htoken, isArgument_token rfl (by simp [bareToken]),
    .of_value rfl rfl rfl rfl⟩

/-- A leaf with one argument, which is read as a string. -/
theorem scan_leaf_of_reads {label : List Char} {value : String}
    (h : ReadsArgument label (HasRole (.value (.str value)))) :
    ∃ events, scan ("It(" ++ String.ofList label ++ ")") = .ok ⟨[.leaf value .noop], events⟩ := by
  let leaf : CallName .leaf := ⟨none, "It", by decide⟩
  have hgap : ∀ c ∈ ([] : List Char), Text.isBlank c = true := by simp
  have hargs : ∀ a ∈ ([] : List (List Char × Role)), ReadsArgument (Prod.fst a) (HasRole a.2) := by simp
  obtain ⟨events, hscan⟩ := (readsBlock_call none leaf h hargs false hgap).scan_eq
  refine ⟨events, Eq.trans (congrArg scan ?_) hscan⟩
  apply String.toList_injective
  simp [leaf, callText, commaSeparated, qualifierText, CallName.text]

/-- A string of which each byte is spelled as an escape is one token. It stands for the characters that have the bytes
as their codes, which are those of the string exactly if all of them are single bytes. The same is read from it as a
label and as an argument. -/
theorem byte_escapes_read_as_codes (s : String) {text : List Char} (h : SpellsBytes (utf8Bytes s) text) :
    let literal := '"' :: (text ++ ['"'])
    let value := String.ofList ((utf8Bytes s).map UInt8.toChar)
    IsToken literal (.string value) ∧ (value = s ↔ ∀ c ∈ s.toList, c.toNat < 0x80) ∧
    (∃ events, scan ("It(" ++ String.ofList literal ++ ")") = .ok ⟨[.leaf value .noop], events⟩) ∧
    (∃ events, scan ("DescribeTable(\"t\", f, Entry(\"d\", " ++ String.ofList literal ++ "))") =
      .ok ⟨[.table "t" none [⟨"d", [.str value]⟩] (.leaves .noop)], events⟩) := by
  intro literal value
  exact ⟨isToken_string (readString_of_spellsBytes h []), map_toChar_utf8Bytes s,
    scan_leaf_of_reads (readsArgument_bytes h), scan_entry_of_reads (readsArgument_bytes h)⟩

/-- The literal for a letter, and for one with an accent. -/
theorem byte_escapes_read_as_codes_accent :
    (∃ events, scan "It(\"\\x41\")" = .ok ⟨[.leaf "A" .noop], events⟩) ∧
      ∃ events, scan "It(\"\\xc3\\xA9\")" = .ok ⟨[.leaf "Ã©" .noop], events⟩ := by
  have hletter : SpellsBytes (utf8Bytes "A") "\\x41".toList := @SpellsBytes.cons 0x41 _ [false, false] _ rfl .nil
  have haccent : SpellsBytes (utf8Bytes "é") "\\xc3\\xA9".toList :=
    @SpellsBytes.cons 0xc3 _ [false, false] _ rfl (@SpellsBytes.cons 0xa9 _ [true, false] _ rfl .nil)
  exact ⟨(byte_escapes_read_as_codes "A" hletter).2.2.1, (byte_escapes_read_as_codes "é" haccent).2.2.1⟩

/-- A letter with an accent does not come back from its bytes, neither as a token nor as a label. -/
theorem byte_escapes_split_accent :
    SpellsBytes (utf8Bytes "é") "\\xc3\\xa9".toList ∧ IsToken "\"\\xc3\\xa9\"".toList (.string "Ã©") ∧
      "Ã©" ≠ "é" ∧ ∃ found, scan "It(\"\\xc3\\xa9\")" = .ok found ∧ found.declarations = [.leaf "Ã©" .noop] := by
  have hspells : SpellsBytes (utf8Bytes "é") "\\xc3\\xa9".toList :=
    @SpellsBytes.cons 0xc3 _ [false, false] _ rfl (@SpellsBytes.cons 0xa9 _ [false, false] _ rfl .nil)
  have hvalue : String.ofList ((utf8Bytes "é").map UInt8.toChar) = "Ã©" := by decide
  have htoken := isToken_string (readString_of_spellsBytes hspells [])
  obtain ⟨events, hscan⟩ := scan_leaf_of_reads (readsArgument_bytes hspells)
  rw [hvalue] at htoken hscan
  exact ⟨hspells, htoken, by decide, _, hscan, rfl⟩

end SpecForest.Source

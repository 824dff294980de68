import SpecForest.Source.Lexer

/-!
# Comments, strings and runes that end

Four things in a source have an end of their own: block comments, interpreted strings, raw strings and runes.
`Terminates` says what such a thing looks like behind its opening, up to and with its end. The readers find
no fault in what is terminated, so a fault means that nothing terminated begins at the opening.
-/

namespace SpecForest.Source

/-! ## What ends -/

/-- What has an end of its own. -/
inductive Opening
  | comment
  | string
  | rawString
  | rune
  deriving DecidableEq

/-- The characters of an opening. -/
def Opening.text : Opening → List Char
  | comment => ['/', '*']
  | string => ['"']
  | rawString => ['\x60']
  | rune => ['\'']

/-- An escape, behind its backslash: a letter, the quote, or a code point in as many digits as its form
asks for. -/
inductive IsEscape (quote : Char) : List Char → Prop
  | simple {c d : Char} (known : simpleEscape? quote c = some d) : IsEscape quote [c]
  | code {c : Char} {e : CodeEscape} {digits : List Char} {code : Nat}
      (not_simple : simpleEscape? quote c = none) (form : codeEscape? c = some e)
      (length_eq : digits.length = e.count)
      (value : readDigits? e.base e.count e.first digits = some code) (valid : code.isValidChar) :
      IsEscape quote (c :: digits)

/-- One character between quotes: itself or an escape. -/
inductive IsQuotedChar (quote : Char) : List Char → Prop
  | plain {c : Char} (not_quote : c ≠ quote) (not_backslash : c ≠ '\\') (not_newline : c ≠ '\n') :
      IsQuotedChar quote [c]
  | escape {cs : List Char} : IsEscape quote cs → IsQuotedChar quote ('\\' :: cs)

/-- Characters between quotes. -/
inductive IsQuotedText (quote : Char) : List Char → Prop
  | nil : IsQuotedText quote []
  | cons {a b : List Char} : IsQuotedChar quote a → IsQuotedText quote b → IsQuotedText quote (a ++ b)

/-- What stands behind an opening, up to and with the end. -/
inductive Terminates : Opening → List Char → Prop
  | comment {body : List Char} (first : ¬ ['*', '/'] <:+: body) : Terminates .comment (body ++ ['*', '/'])
  | string {body : List Char} (inside : IsQuotedText '"' body) : Terminates .string (body ++ ['"'])
  | rawString {body : List Char} (first : '\x60' ∉ body) : Terminates .rawString (body ++ ['\x60'])
  | rune {body : List Char} (inside : IsQuotedChar '\'' body) : Terminates .rune (body ++ ['\''])

/-- Behind an opening, nothing comes to its end. -/
def Unterminated (o : Opening) (rest : List Char) : Prop :=
  ∀ text, Terminates o text → ¬ text <+: rest

/-- What a fault can be about. The faults of brackets are about nothing that ends. -/
def Fault.openings : Fault → List Opening
  | .unterminatedComment => [.comment]
  | .unterminatedString => [.string]
  | .unterminatedRawString => [.rawString]
  | .malformedRune => [.rune]
  | .unterminatedEscape => [.string, .rune]
  | .unknownEscape _ => [.string, .rune]
  | .malformedEscape => [.string, .rune]
  | .invalidCodePoint => [.string, .rune]
  | .mismatched _ _ => []
  | .unbalanced => []
  | .unclosed _ => []

/-- Something that begins with an opening and does not end, and the fault that says so. -/
def Malformed (fault : Fault) (cs : List Char) : Prop :=
  ∃ o ∈ fault.openings, ∃ rest, cs = o.text ++ rest ∧ Unterminated o rest

/-! ## Escapes -/

theorem readDigits?_append {base count acc code : Nat} {cs : List Char}
    (h : readDigits? base count acc cs = some code) (next : List Char) :
    readDigits? base count acc (cs ++ next) = some code := by
  induction count generalizing acc cs with
  | zero => exact h
  | succ count ih =>
    cases cs with
    | nil => cases h
    | cons c cs =>
      rw [readDigits?] at h
      rw [List.cons_append, readDigits?]
      obtain ⟨d, hd, hrest⟩ := Option.bind_eq_some_iff.mp h
      rw [hd, Option.bind_some]
      exact ih hrest

theorem readEscape_of_isEscape {quote : Char} {text : List Char} (h : IsEscape quote text)
    (next : List Char) : ∃ d, readEscape quote (text ++ next) = .ok (d, text.length) := by
  cases h with
  | @simple c d known => exact ⟨d, by simp [readEscape, known]⟩
  | @code c e digits code not_simple form length_eq value valid =>
    have hread := readDigits?_append value next
    have hchar : charOfCode? code = some (Char.ofNat code) := if_pos valid
    refine ⟨Char.ofNat code, ?_⟩
    simp only [List.cons_append, readEscape, not_simple, form, hread, hchar, List.length_cons, length_eq]
    rw [Nat.add_comm]

theorem openings_of_readEscape {quote : Char} {cs : List Char} {fault : Fault}
    (h : readEscape quote cs = .error fault) : fault.openings = [.string, .rune] := by
  unfold readEscape at h
  split at h
  · cases h
    rfl
  · split at h
    · cases h
    · split at h
      · cases h
        rfl
      · split at h
        · cases h
          rfl
        · split at h
          · cases h
            rfl
          · cases h

/-! ## Strings -/

/-- A string is read to its end. -/
theorem exists_readString {body : List Char} (h : IsQuotedText '"' body) (next : List Char) :
    ∃ r, readString (body ++ '"' :: next) = .ok r := by
  induction h with
  | nil =>
    refine ⟨([], 1), ?_⟩
    rw [List.nil_append, readString]
    rfl
  | @cons a b ha hb ih =>
    obtain ⟨⟨ds, m⟩, hrest⟩ := ih
    cases ha with
    | @plain c not_quote not_backslash not_newline =>
      refine ⟨(c :: ds, 1 + m), ?_⟩
      rw [List.append_assoc, List.singleton_append, readString]
      simp only [not_quote, not_backslash, not_newline, if_false, hrest, Except.map]
    | @escape cs hescape =>
      obtain ⟨d, hread⟩ := readEscape_of_isEscape hescape (b ++ '"' :: next)
      have hquote : ¬ '\\' = '"' := by decide
      refine ⟨(d :: ds, 1 + cs.length + m), ?_⟩
      rw [List.append_assoc, List.cons_append, readString]
      simp only [hquote, if_false, if_true, hread, List.drop_left, hrest, Except.map]

/-- What is made of a result leaves a fault as it is. -/
theorem eq_error_of_map {α β ε : Type} {r : Except ε α} {f : α → β} {e : ε} (h : r.map f = .error e) :
    r = .error e := by
  cases r with
  | error e' =>
    cases h
    rfl
  | ok a => cases h

theorem string_mem_openings_of_readString {cs : List Char} {fault : Fault}
    (h : readString cs = .error fault) : Opening.string ∈ fault.openings := by
  fun_induction readString cs with
  | case1 =>
    cases h
    exact List.mem_singleton_self _
  | case2 rest => cases h
  | case3 rest fault' hescape _ =>
    cases h
    rw [openings_of_readEscape hescape]
    exact List.mem_cons_self
  | case4 rest d n _ _ ih => exact ih (eq_error_of_map h)
  | case5 rest =>
    cases h
    exact List.mem_singleton_self _
  | case6 c rest _ _ _ ih => exact ih (eq_error_of_map h)

theorem malformed_of_readString {cs : List Char} {fault : Fault} (h : readString cs = .error fault) :
    Malformed fault ('"' :: cs) := by
  refine ⟨.string, string_mem_openings_of_readString h, cs, rfl, ?_⟩
  rintro text ⟨⟩ ⟨next, hnext⟩
  rename_i body inside
  obtain ⟨r, hread⟩ := exists_readString inside next
  rw [List.append_assoc, List.singleton_append] at hnext
  rw [hnext, h] at hread
  cases hread

theorem malformed_of_readRawString {cs : List Char} {fault : Fault} (h : readRawString cs = .error fault) :
    Malformed fault ('\x60' :: cs) := by
  by_cases hlength : (cs.takeWhile (· != '\x60')).length < cs.length
  · simp [readRawString, hlength] at h
  · obtain rfl : fault = .unterminatedRawString := by simpa [readRawString, hlength, eq_comm] using h
    refine ⟨.rawString, List.mem_singleton_self _, cs, rfl, ?_⟩
    rintro text ⟨⟩ ⟨next, hnext⟩
    rename_i body first
    -- the reader stops at the first backquote, and there is one
    apply hlength
    have hbody : ∀ c ∈ body, (c != '\x60') = true := fun c hc => by
      simpa using ne_of_mem_of_not_mem hc first
    rw [← hnext, List.append_assoc, List.takeWhile_append_of_pos hbody]
    simp

/-! ## Runes -/

/-- A rune is read to its end. -/
theorem exists_readRune {body : List Char} (h : IsQuotedChar '\'' body) (next : List Char) :
    ∃ r, readRune (body ++ '\'' :: next) = .ok r := by
  cases h with
  | @plain c not_quote not_backslash not_newline =>
    refine ⟨(c, 2), ?_⟩
    simp [readRune, closeRune, not_quote, not_backslash, not_newline]
  | @escape cs hescape =>
    obtain ⟨d, hread⟩ := readEscape_of_isEscape hescape ('\'' :: next)
    refine ⟨(d, 1 + cs.length + 1), ?_⟩
    simp [readRune, closeRune, hread]

theorem rune_mem_openings_of_closeRune {c : Char} {n : Nat} {cs : List Char} {fault : Fault}
    (h : closeRune c n cs = .error fault) : Opening.rune ∈ fault.openings := by
  unfold closeRune at h
  split at h
  · cases h
  · cases h
    exact List.mem_singleton_self _

theorem rune_mem_openings_of_readRune {cs : List Char} {fault : Fault}
    (h : readRune cs = .error fault) : Opening.rune ∈ fault.openings := by
  cases cs with
  | nil =>
    cases h
    exact List.mem_singleton_self _
  | cons c rest =>
    rw [readRune] at h
    by_cases hbackslash : c = '\\'
    · rw [if_pos hbackslash] at h
      cases hescape : readEscape '\'' rest with
      | error fault' =>
        rw [hescape] at h
        cases h
        rw [openings_of_readEscape hescape]
        simp
      | ok r =>
        rw [hescape] at h
        exact rune_mem_openings_of_closeRune h
    · rw [if_neg hbackslash] at h
      by_cases hempty : c = '\'' ∨ c = '\n'
      · rw [if_pos hempty] at h
        cases h
        exact List.mem_singleton_self _
      · rw [if_neg hempty] at h
        exact rune_mem_openings_of_closeRune h

theorem malformed_of_readRune {cs : List Char} {fault : Fault} (h : readRune cs = .error fault) :
    Malformed fault ('\'' :: cs) := by
  refine ⟨.rune, rune_mem_openings_of_readRune h, cs, rfl, ?_⟩
  rintro text ⟨⟩ ⟨next, hnext⟩
  rename_i body inside
  obtain ⟨r, hread⟩ := exists_readRune inside next
  rw [List.append_assoc, List.singleton_append] at hnext
  rw [hnext, h] at hread
  cases hread

/-! ## Tokens and comments -/

/-- If no token can be read, a string or a rune is malformed. -/
theorem malformed_of_readToken {c : Char} {rest : List Char} {fault : Fault}
    (h : readToken c rest = .error fault) : Malformed fault (c :: rest) := by
  unfold readToken at h
  split at h
  case h_8 => exact malformed_of_readString (eq_error_of_map h)
  case h_9 => exact malformed_of_readRawString (eq_error_of_map h)
  case h_10 => exact malformed_of_readRune (eq_error_of_map h)
  case h_11 =>
    -- names, numbers and symbols are always read
    repeat' split at h
    all_goals cases h
  all_goals cases h

/-- The end of a block comment is the first that there is. -/
theorem blockCommentLength?_eq_some {cs : List Char} {n : Nat} (h : blockCommentLength? cs = some n) :
    ∃ text rest, cs = text ++ rest ∧ text.length = n ∧ Terminates .comment text := by
  fun_induction blockCommentLength? cs generalizing n with
  | case1 => cases h
  | case2 rest =>
    cases h
    have hempty : Terminates .comment ([] ++ ['*', '/']) := .comment (by simp)
    exact ⟨['*', '/'], rest, rfl, rfl, hempty⟩
  | case3 c rest hend ih =>
    obtain ⟨m, hm, rfl⟩ := Option.map_eq_some_iff.mp h
    obtain ⟨_, after, rfl, hlength, ⟨⟩⟩ := ih hm
    rename_i body first
    refine ⟨c :: body ++ ['*', '/'], after, rfl, by simpa using hlength, .comment ?_⟩
    rw [List.infix_cons_iff]
    rintro (⟨tail, htail⟩ | hinfix)
    · -- an end at the very beginning is the case before
      cases htail
      exact hend _ rfl rfl
    · exact first hinfix

theorem unterminated_of_blockCommentLength? {cs : List Char} (h : blockCommentLength? cs = none) :
    Unterminated .comment cs := by
  have hnone : ¬ ['*', '/'] <:+: cs := by
    fun_induction blockCommentLength? cs with
    | case1 => simp
    | case2 rest => cases h
    | case3 c rest hend ih =>
      rw [List.infix_cons_iff]
      rintro (⟨tail, htail⟩ | hinfix)
      · cases htail
        exact hend _ rfl rfl
      · exact ih (Option.map_eq_none_iff.mp h) hinfix
  rintro text ⟨⟩ ⟨next, hnext⟩
  rename_i body first
  exact hnone ⟨body, next, hnext⟩

end SpecForest.Source

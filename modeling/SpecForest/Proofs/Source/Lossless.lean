import SpecForest.Proofs.Source.Lexing
import SpecForest.Proofs.Source.Listing

/-!
# Tokens and the bytes of a source

No character of a source is lost: it is the gaps and the texts of its tokens in turn, and a last gap.
The offset of a token is the number of bytes before it, so cutting the source at the offsets of tokens
gives their texts back, and the text of an expression from its first token to its last.
-/

namespace SpecForest.Source

/-! ## Bytes -/

/-- The number of bytes of some characters. -/
def byteCount : List Char → Nat
  | [] => 0
  | c :: cs => c.utf8Size + byteCount cs

@[simp] theorem byteCount_append (a b : List Char) : byteCount (a ++ b) = byteCount a + byteCount b := by
  induction a with
  | nil => simp [byteCount]
  | cons c a ih => simp [byteCount, ih, Nat.add_assoc]

theorem utf8ByteSize_ofList (cs : List Char) : (String.ofList cs).utf8ByteSize = byteCount cs := by
  induction cs with
  | nil => rfl
  | cons c cs ih =>
    rw [byteCount, ← ih, ← String.utf8ByteSize_singleton, ← String.utf8ByteSize_append,
      String.singleton_eq_ofList, ← String.ofList_append, List.singleton_append]

theorem dropBytes?_append (a b : List Char) : dropBytes? (byteCount a) (a ++ b) = some b := by
  induction a with
  | nil => cases b <;> rfl
  | cons c a ih =>
    have hpos := c.utf8Size_pos
    rw [List.cons_append, dropBytes?, byteCount, if_neg (by omega), if_pos (by omega),
      Nat.add_sub_cancel_left, ih]

theorem takeBytes?_append (a b : List Char) : takeBytes? (byteCount a) (a ++ b) = some a := by
  induction a with
  | nil => cases b <;> rfl
  | cons c a ih =>
    have hpos := c.utf8Size_pos
    rw [List.cons_append, takeBytes?, byteCount, if_neg (by omega), if_pos (by omega),
      Nat.add_sub_cancel_left, ih, Option.map_some]

/-- A cut at the ends of a part gives the part. -/
theorem slice_append (a b c : List Char) :
    slice (a ++ (b ++ c)) (byteCount a) (byteCount a + byteCount b) = .ok b := by
  rw [slice, if_pos (Nat.le_add_right _ _), dropBytes?_append, Option.bind_some, Nat.add_sub_cancel_left,
    takeBytes?_append]

theorem Position.advance_offset (p : Position) (cs : List Char) :
    (p.advance cs).offset = p.offset + byteCount cs := by
  induction cs generalizing p with
  | nil => rfl
  | cons c cs ih =>
    have hstep : (p.step c).offset = p.offset + c.utf8Size := by
      unfold Position.step
      split <;> rfl
    have hcons : p.advance (c :: cs) = (p.step c).advance cs := rfl
    rw [hcons, ih, hstep, byteCount, Nat.add_assoc]

/-! ## Tokens in their places -/

/-- A token is what is read from its first character on. -/
def Token.Genuine (t : Token) : Prop :=
  ∃ c rest n, readToken c rest = .ok (t.kind, n) ∧ t.text.toList = c :: rest.take n

/-- The characters of some tokens and of the gaps before them. -/
def written : List Token → List Char
  | [] => []
  | t :: rest => t.gap.toList ++ t.text.toList ++ written rest

@[simp] theorem written_append (a b : List Token) : written (a ++ b) = written a ++ written b := by
  induction a with
  | nil => rfl
  | cons t a ih => simp [written, ih]

/-- Tokens that stand one behind the other, the gap before the first behind a number of bytes. -/
def StandFrom (n : Nat) : List Token → Prop
  | [] => True
  | t :: rest =>
    t.start.offset = n + byteCount t.gap.toList ∧ t.Genuine ∧
      StandFrom (n + byteCount t.gap.toList + byteCount t.text.toList) rest

theorem standFrom_append {n : Nat} {a b : List Token} :
    StandFrom n (a ++ b) ↔ StandFrom n a ∧ StandFrom (n + byteCount (written a)) b := by
  induction a generalizing n with
  | nil => simp [StandFrom, written, byteCount]
  | cons t a ih => simp [StandFrom, written, ih, and_assoc, Nat.add_assoc]

/-- The tokens of a text stand one behind the other, and only a gap comes behind them. -/
theorem tokensFrom_lossless {p : Position} {cs : List Char} {ts : List Token}
    (h : tokensFrom p cs = .ok ts) :
    ∃ last, cs = written ts ++ last ∧ StandFrom p.offset ts := by
  fun_induction tokensFrom p cs generalizing ts with
  | case1 p cs n hgap => cases h
  | case2 p cs n hgap hdrop =>
    cases h
    exact ⟨cs, rfl, trivial⟩
  | case3 p cs n hgap gap start c rest hdrop fault hread => cases h
  | case4 p cs n hgap gap start c rest hdrop _ kind more hread text token =>
    rename_i ih
    cases hrest : tokensFrom (start.advance text) (rest.drop more) with
    | error e =>
      rw [hrest] at h
      cases h
    | ok us =>
      rw [hrest] at h
      cases h
      obtain ⟨last, hlast, hstand⟩ := ih hrest
      refine ⟨last, ?_, ?_, ?_, ?_⟩
      -- the text is cut where the reader cuts it: behind the gap, and behind the token
      · calc cs = gap ++ cs.drop n := (List.take_append_drop n cs).symm
          _ = gap ++ c :: (rest.take more ++ rest.drop more) := by rw [hdrop, List.take_append_drop]
          _ = gap ++ text ++ (written us ++ last) := by rw [hlast]; simp [text]
          _ = _ := by simp [written, token, String.toList_ofList]
      · rw [String.toList_ofList]
        exact Position.advance_offset p gap
      · exact ⟨c, rest, more, hread, String.toList_ofList⟩
      · rw [String.toList_ofList, String.toList_ofList, ← Position.advance_offset,
          ← Position.advance_offset]
        exact hstand

/-! ## Runs of tokens -/

/-- Tokens that stand one behind the other somewhere in a source. -/
def RunIn (cs : List Char) (ts : List Token) : Prop :=
  ∃ front back, cs = front ++ written ts ++ back ∧ StandFrom (byteCount front) ts

theorem runIn_append {cs : List Char} {a b : List Token} (h : RunIn cs (a ++ b)) :
    RunIn cs a ∧ RunIn cs b := by
  obtain ⟨front, back, hcs, hstand⟩ := h
  obtain ⟨ha, hb⟩ := standFrom_append.mp hstand
  refine ⟨⟨front, written b ++ back, by simp [hcs], ha⟩, ⟨front ++ written a, back, by simp [hcs], ?_⟩⟩
  rw [byteCount_append]
  exact hb

theorem RunIn.genuine {cs : List Char} {ts : List Token} (h : RunIn cs ts) {t : Token} (ht : t ∈ ts) :
    t.Genuine := by
  obtain ⟨a, b, rfl⟩ := List.append_of_mem ht
  obtain ⟨_, hb⟩ := runIn_append h
  obtain ⟨_, _, _, _, hgenuine, _⟩ := hb
  exact hgenuine

/-- The tokens of a source are a run in it. -/
theorem runIn_of_tokens {source : String} {ts : List Token} (h : tokens source = .ok ts) :
    RunIn source.toList ts := by
  obtain ⟨last, hlast, hstand⟩ := tokensFrom_lossless h
  exact ⟨[], last, by simpa using hlast, hstand⟩

/-- The characters from the first of some tokens to the last. -/
theorem toList_sourceText (t : Token) (rest : List Token) :
    (sourceText (t :: rest)).toList = t.text.toList ++ written rest := by
  have hjoin : (String.join (rest.map fun u => u.gap ++ u.text)).toList = written rest := by
    induction rest with
    | nil => rfl
    | cons u rest ih =>
      rw [List.map_cons, String.join_cons, String.toList_append, String.toList_append, ih]
      rfl
  rw [sourceText, String.toList_append, hjoin]

theorem Token.stop_eq (t : Token) : t.stop = t.start.offset + byteCount t.text.toList := by
  rw [Token.stop, ← utf8ByteSize_ofList, String.ofList_toList]

/-- The last of some tokens ends where their characters end. -/
theorem stop_getLast {n : Nat} {ts : List Token} (h : StandFrom n ts) {last : Token}
    (hlast : ts.getLast? = some last) : last.stop = n + byteCount (written ts) := by
  obtain ⟨front, rfl⟩ := List.getLast?_eq_some_iff.mp hlast
  obtain ⟨_, hoffset, _⟩ := standFrom_append.mp h
  rw [Token.stop_eq, hoffset]
  simp [written, Nat.add_assoc]

/-- Cutting a source from the first of some tokens to the last gives their text. -/
theorem RunIn.slice_eq {cs : List Char} {t last : Token} {rest : List Token} (h : RunIn cs (t :: rest))
    (hlast : (t :: rest).getLast? = some last) :
    slice cs t.start.offset last.stop = .ok (sourceText (t :: rest)).toList := by
  obtain ⟨front, back, rfl, hstand⟩ := h
  have hstop := stop_getLast hstand hlast
  obtain ⟨hoffset, _, _⟩ := hstand
  have hcut := slice_append (front ++ t.gap.toList) (t.text.toList ++ written rest) back
  rw [toList_sourceText, hoffset, hstop]
  simpa [written, Nat.add_assoc] using hcut

/-! ## What the text of a token says about its kind -/

theorem StandFrom.length_le {n : Nat} {ts : List Token} (h : StandFrom n ts) :
    ts.length ≤ (written ts).length := by
  induction ts generalizing n with
  | nil => exact Nat.le_refl 0
  | cons t rest ih =>
    obtain ⟨_, ⟨c, cs, m, _, htext⟩, hrest⟩ := h
    have hle := ih hrest
    simp only [written, htext, List.length_append, List.length_cons]
    omega

/-- A source has no more tokens than characters. -/
theorem length_tokens_le {source : String} {ts : List Token} (h : tokens source = .ok ts) :
    ts.length ≤ source.length := by
  obtain ⟨last, hlast, hstand⟩ := tokensFrom_lossless h
  have hle := hstand.length_le
  have hlength : source.length = (written ts ++ last).length := by
    rw [← hlast, String.length_toList]
  rw [hlength, List.length_append]
  omega

/-- Nothing but a name begins with a letter. -/
theorem Token.Genuine.kind_of_func {t : Token} (h : t.Genuine) (htext : t.text = "func") :
    t.kind = .name := by
  obtain ⟨c, rest, n, hread, hchars⟩ := h
  rw [htext] at hchars
  obtain rfl : 'f' = c := (List.cons.inj hchars).1
  rw [readToken_name (by decide)] at hread
  simp only [Except.ok.injEq, Prod.mk.injEq] at hread
  exact hread.1.symm

/-- Whether a character is a sign. -/
def isSign (c : Char) : Bool := c == '+' || c == '-'

/-- A number that is floating stays so. -/
theorem numberTail_true (hex : Bool) (before : Char) (cs : List Char) :
    (numberTail hex true before cs).1 = true := by
  induction cs generalizing before with
  | nil => rfl
  | cons c cs ih =>
    simp only [numberTail, Bool.true_or]
    split
    · exact ih c
    · split
      · exact ih c
      · rfl

theorem isSign_of_isAlphanum {c : Char} (h : (c.isAlphanum || c == '_' || c == '.') = true) :
    isSign c = false := by
  cases hsign : isSign c with
  | false => rfl
  | true =>
    simp only [isSign, Bool.or_eq_true, beq_iff_eq] at hsign
    rcases hsign with rfl | rfl
    · exact absurd h (by decide)
    · exact absurd h (by decide)

/-- A number that is not floating has no sign behind its first character. -/
theorem numberTail_no_sign {hex : Bool} {before : Char} {cs : List Char} {n : Nat}
    (h : numberTail hex false before cs = (false, n)) : ∀ c ∈ cs.take n, isSign c = false := by
  induction cs generalizing before n with
  | nil => simp
  | cons c cs ih =>
    simp only [numberTail] at h
    cases hplain : (c.isAlphanum || c == '_' || c == '.') with
    | true =>
      simp only [hplain, if_true, Prod.mk.injEq] at h
      obtain ⟨hfalse, rfl⟩ := h
      cases hflag : (false || c == '.' || isExponentMark hex before || isExponentMark hex c) with
      | true =>
        rw [hflag, numberTail_true] at hfalse
        cases hfalse
      | false =>
        rw [hflag] at hfalse
        have htail := ih (Prod.ext hfalse rfl)
        rw [List.take_succ_cons]
        exact List.forall_mem_cons.mpr ⟨isSign_of_isAlphanum hplain, htail⟩
    | false =>
      -- a sign is taken only behind the mark of an exponent, which makes the number floating
      simp only [hplain, Bool.false_eq_true, if_false] at h
      cases hexponent : (isExponentMark hex before && (c == '+' || c == '-')) with
      | true => simp [hexponent, numberTail_true] at h
      | false =>
        simp only [hexponent, Bool.false_eq_true, if_false, Prod.mk.injEq, true_and] at h
        simp [← h]

theorem readNumber_no_sign {first : Char} {rest : List Char} {n : Nat}
    (hfirst : (first.isAlphanum || first == '_' || first == '.') = true)
    (h : readNumber first rest = (.integer, n)) : ∀ c ∈ first :: rest.take n, isSign c = false := by
  simp only [readNumber, Prod.mk.injEq] at h
  obtain ⟨hkind, rfl⟩ := h
  cases hfloat : (numberTail (startsHex first rest) (first == '.') first rest).1 with
  | true => simp [hfloat] at hkind
  | false =>
    cases hdot : (first == '.') with
    | true => simp [hdot, numberTail_true] at hfloat
    | false =>
      rw [hdot] at hfloat
      exact List.forall_mem_cons.mpr ⟨isSign_of_isAlphanum hfirst, numberTail_no_sign (Prod.ext hfloat rfl)⟩

/-- An integer has no sign of its own. -/
theorem Token.Genuine.no_sign {t : Token} (h : t.Genuine) (hkind : t.kind = .integer) :
    ∀ c ∈ t.text.toList, isSign c = false := by
  obtain ⟨c, rest, n, hread, hchars⟩ := h
  rw [hkind] at hread
  rw [hchars]
  unfold readToken at hread
  split at hread
  -- only the default case has numbers; quotes give strings and runes, and all else is a bracket or a comma
  case h_11 =>
    split at hread
    · cases hread
    · split at hread
      · rename_i hdot
        simp only [Bool.and_eq_true] at hdot
        exact readNumber_no_sign (by simp [hdot.1]) (Except.ok.inj hread)
      · split at hread
        · rename_i hdigit
          exact readNumber_no_sign (by simp [Char.isAlphanum, hdigit]) (Except.ok.inj hread)
        · split at hread <;> cases hread
  case h_8 =>
    cases hstring : readString rest <;> rw [hstring] at hread <;> cases hread
  case h_9 =>
    cases hstring : readRawString rest <;> rw [hstring] at hread <;> cases hread
  case h_10 =>
    cases hrune : readRune rest <;> rw [hrune] at hread <;> cases hread
  all_goals cases hread

end SpecForest.Source

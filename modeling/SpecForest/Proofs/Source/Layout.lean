import Mathlib
import SpecForest.Proofs.Source.Lossless
import SpecForest.Proofs.Source.Terminated

/-!
# Where tokens stand

A source is gaps and tokens in turn. A gap is blanks and complete comments, and a token stands where the
counts of the characters before it say. If the tokens of a source cannot be read, the fault is placed at the
first character of the comment, string or rune that is malformed, and all before it is gaps and tokens again.
-/

namespace SpecForest.Source

/-! ## Positions -/

/-- The position behind the first characters of a text: a line for every line break, and a column for every
character behind the last line break. -/
def Position.behind (cs : List Char) : Position :=
  ⟨byteCount cs, 1 + cs.count '\n', 1 + (cs.reverse.takeWhile (· != '\n')).length⟩

theorem Position.step_behind (cs : List Char) (c : Char) :
    (Position.behind cs).step c = .behind (cs ++ [c]) := by
  unfold Position.step Position.behind
  by_cases hc : c = '\n'
  · subst hc
    rw [if_pos rfl]
    simp [byteCount, Nat.add_assoc]
  · rw [if_neg hc]
    simp [byteCount, hc, Nat.add_comm]

/-- Positions are kept step by step, and come to what the counts say. -/
theorem Position.advance_behind (front cs : List Char) :
    (Position.behind front).advance cs = .behind (front ++ cs) := by
  induction cs generalizing front with
  | nil => rw [List.append_nil, Position.advance_nil]
  | cons c cs ih =>
    have hstep : (Position.behind front).advance (c :: cs) =
        ((Position.behind front).step c).advance cs := rfl
    rw [hstep, Position.step_behind, ih, List.append_assoc, List.singleton_append]

/-! ## Gaps -/

/-- Blanks and complete comments, in front of what follows. A line comment goes up to a line break or to the
end of the source. -/
inductive IsGap : (gap next : List Char) → Prop
  | nil (next : List Char) : IsGap [] next
  | blank {c : Char} {gap next : List Char} (blank : Text.isBlank c = true) :
      IsGap gap next → IsGap (c :: gap) next
  | line {body gap next : List Char} (one_line : '\n' ∉ body)
      (ends : ∀ c ∈ (gap ++ next).head?, c = '\n') :
      IsGap gap next → IsGap ('/' :: '/' :: (body ++ gap)) next
  | block {text gap next : List Char} (complete : Terminates .comment text) :
      IsGap gap next → IsGap ('/' :: '*' :: (text ++ gap)) next

/-- A text up to its first line break. -/
theorem exists_line (cs : List Char) : ∃ body after, cs = body ++ after ∧
    cs.takeWhile (· != '\n') = body ∧ '\n' ∉ body ∧ ∀ c ∈ after.head?, c = '\n' := by
  refine ⟨_, cs.dropWhile (· != '\n'), List.takeWhile_append_dropWhile.symm, rfl, ?_, ?_⟩
  · intro hmem
    have hstop := List.all_eq_true.mp (List.all_takeWhile (p := (· != '\n')) (l := cs)) '\n' hmem
    simp at hstop
  · intro c hc
    have hstop := List.head?_dropWhile_not (· != '\n') cs
    rw [Option.mem_def.mp hc] at hstop
    simpa using hstop

/-- The gap at the start of a text is blanks and complete comments. It is followed by a comment without an
end, if reading it fails. -/
theorem gapLength_cases (cs : List Char) : ∃ gap rest, cs = gap ++ rest ∧ IsGap gap rest ∧
    (gapLength cs = .ok gap.length ∨
      gapLength cs = .error gap.length ∧ Malformed .unterminatedComment rest) := by
  -- a step that takes some characters shifts what is found behind them
  have shift : ∀ (piece : List Char) {gap rest : List Char} {r : Except Nat Nat},
      (r = .ok gap.length ∨ r = .error gap.length ∧ Malformed .unterminatedComment rest) →
      (shiftBy piece.length r = .ok (piece ++ gap).length ∨
        shiftBy piece.length r = .error (piece ++ gap).length ∧ Malformed .unterminatedComment rest) := by
    rintro piece gap rest r (rfl | ⟨rfl, hbad⟩)
    · exact .inl (by rw [shiftBy, List.length_append])
    · exact .inr ⟨by rw [shiftBy, List.length_append], hbad⟩
  fun_induction gapLength cs with
  | case1 => exact ⟨[], [], rfl, .nil [], .inl rfl⟩
  | case2 rest n ih =>
    obtain ⟨body, after, hrest, hbody, hline, hends⟩ := exists_line rest
    have hn : n = body.length := by rw [← hbody]
    have hafter : rest.drop n = after := by rw [hn, hrest, List.drop_left]
    obtain ⟨gap, next, hnext, hgap, hread⟩ := ih
    have hsplit : after = gap ++ next := by rw [← hafter, hnext]
    refine ⟨'/' :: '/' :: (body ++ gap), next, by rw [hrest, hsplit]; simp, .line hline ?_ hgap, ?_⟩
    · rw [← hsplit]
      exact hends
    · have hlength : 2 + n = ('/' :: '/' :: body).length := by
        rw [hn, List.length_cons, List.length_cons]
        omega
      rw [hlength]
      exact shift _ hread
  | case3 rest hnone =>
    have hbad : Malformed .unterminatedComment ('/' :: '*' :: rest) :=
      ⟨.comment, List.mem_singleton_self _, rest, rfl, unterminated_of_blockCommentLength? hnone⟩
    exact ⟨[], '/' :: '*' :: rest, rfl, .nil _, .inr ⟨rfl, hbad⟩⟩
  | case4 rest n hsome ih =>
    obtain ⟨text, after, hrest, hlength, hcomment⟩ := blockCommentLength?_eq_some hsome
    have hafter : rest.drop n = after := by rw [← hlength, hrest, List.drop_left]
    obtain ⟨gap, next, hnext, hgap, hread⟩ := ih
    have hsplit : after = gap ++ next := by rw [← hafter, hnext]
    refine ⟨'/' :: '*' :: (text ++ gap), next, by rw [hrest, hsplit]; simp, .block hcomment hgap, ?_⟩
    have htake : 2 + n = ('/' :: '*' :: text).length := by
      rw [← hlength, List.length_cons, List.length_cons]
      omega
    rw [htake]
    exact shift _ hread
  | case5 c rest _ _ hblank ih =>
    obtain ⟨gap, next, hnext, hgap, hread⟩ := ih
    exact ⟨c :: gap, next, by rw [hnext, List.cons_append], .blank hblank hgap, shift [c] hread⟩
  | case6 c rest _ _ hblank => exact ⟨[], c :: rest, rfl, .nil _, .inl rfl⟩

theorem isGap_of_gapLength {cs : List Char} {n : Nat} (h : gapLength cs = .ok n) :
    IsGap (cs.take n) (cs.drop n) := by
  obtain ⟨gap, rest, hcs, hgap, hok | ⟨herror, -⟩⟩ := gapLength_cases cs
  · obtain rfl : n = gap.length := by
      rw [h] at hok
      exact Except.ok.inj hok
    rw [hcs, List.take_left, List.drop_left]
    exact hgap
  · rw [h] at herror
    cases herror

theorem malformed_of_gapLength {cs : List Char} {n : Nat} (h : gapLength cs = .error n) :
    IsGap (cs.take n) (cs.drop n) ∧ Malformed .unterminatedComment (cs.drop n) := by
  obtain ⟨gap, rest, hcs, hgap, hok | ⟨herror, hbad⟩⟩ := gapLength_cases cs
  · rw [h] at hok
    cases hok
  · obtain rfl : n = gap.length := by
      rw [h] at herror
      exact Except.error.inj herror
    rw [hcs, List.take_left, List.drop_left]
    exact ⟨hgap, hbad⟩

/-! ## Tokens and gaps in turn -/

/-- Tokens that stand behind some characters and in front of others, with gaps between them. -/
def LaidOut (front next : List Char) : List Token → Prop
  | [] => True
  | t :: rest =>
    t.text.toList ≠ [] ∧ IsGap t.gap.toList (t.text.toList ++ (written rest ++ next)) ∧
      t.start = .behind (front ++ t.gap.toList) ∧
      LaidOut (front ++ t.gap.toList ++ t.text.toList) next rest

/-- A token behind a gap, and the rest of the text. -/
theorem laidOut_cons {front next cs : List Char} {n more : Nat} {c : Char} {rest : List Char}
    (kind : TokenKind) {ts : List Token} (hgap : gapLength cs = .ok n) (hdrop : cs.drop n = c :: rest)
    (hrest : rest.drop more = written ts ++ next)
    (hts : LaidOut (front ++ cs.take n ++ c :: rest.take more) next ts) :
    let t : Token := ⟨String.ofList (cs.take n), String.ofList (c :: rest.take more), kind,
      .behind (front ++ cs.take n)⟩
    cs = written (t :: ts) ++ next ∧ LaidOut front next (t :: ts) := by
  intro t
  have htext : c :: rest = (c :: rest.take more) ++ (written ts ++ next) := by
    rw [List.cons_append, ← hrest, List.take_append_drop]
  refine ⟨?_, ?_, ?_, ?_, ?_⟩
  · calc cs = cs.take n ++ cs.drop n := (List.take_append_drop n cs).symm
      _ = cs.take n ++ ((c :: rest.take more) ++ (written ts ++ next)) := by rw [hdrop, htext]
      _ = written (t :: ts) ++ next := by simp [written, t]
  · rw [String.toList_ofList]
    exact List.cons_ne_nil _ _
  · rw [String.toList_ofList, String.toList_ofList, ← htext, ← hdrop]
    exact isGap_of_gapLength hgap
  · rw [String.toList_ofList]
  · rw [String.toList_ofList, String.toList_ofList]
    exact hts

/-- Tokens that can be read are laid out over the text, and the last gap ends with it. -/
theorem laidOut_of_tokensFrom {p : Position} {front cs : List Char} {ts : List Token}
    (hp : p = .behind front) (h : tokensFrom p cs = .ok ts) :
    ∃ last, cs = written ts ++ last ∧ LaidOut front last ts ∧ IsGap last [] := by
  fun_induction tokensFrom p cs generalizing front ts with
  | case1 p cs n hgap => cases h
  | case2 p cs n hgap hdrop =>
    cases h
    have hall : cs.take n = cs := List.take_of_length_le (List.drop_eq_nil_iff.mp hdrop)
    have hlast := isGap_of_gapLength hgap
    rw [hall, hdrop] at hlast
    exact ⟨cs, rfl, trivial, hlast⟩
  | case3 => cases h
  | case4 p cs n hgap gap start c rest hdrop _ kind more hread text =>
    rename_i token ih
    subst hp
    have hstart : start = .behind (front ++ gap) := Position.advance_behind front gap
    have hbehind : start.advance text = .behind (front ++ gap ++ text) := by
      rw [hstart, Position.advance_behind]
    cases hrest : tokensFrom (start.advance text) (rest.drop more) with
    | error e =>
      rw [hrest] at h
      cases h
    | ok us =>
      rw [hrest] at h
      cases h
      obtain ⟨last, hcs, hus, hlast⟩ := ih hbehind hrest
      obtain ⟨hwritten, hlaid⟩ := laidOut_cons kind hgap hdrop hcs hus
      rw [← hstart] at hwritten hlaid
      exact ⟨last, hwritten, hlaid, hlast⟩

/-- If tokens cannot be read, those before the fault are laid out over the text, and what is malformed begins
behind a gap. -/
theorem malformed_of_tokensFrom {p : Position} {front cs : List Char} {e : LexError}
    (hp : p = .behind front) (h : tokensFrom p cs = .error e) :
    ∃ ts gap bad, cs = written ts ++ (gap ++ bad) ∧ LaidOut front (gap ++ bad) ts ∧ IsGap gap bad ∧
      e.position = .behind (front ++ written ts ++ gap) ∧ Malformed e.fault bad := by
  fun_induction tokensFrom p cs generalizing front with
  | case1 p cs n hgap =>
    cases h
    subst hp
    obtain ⟨hisGap, hbad⟩ := malformed_of_gapLength hgap
    refine ⟨[], cs.take n, cs.drop n, by simp [written], trivial, hisGap, ?_, hbad⟩
    rw [Position.advance_behind, written, List.append_nil]
  | case2 p cs n hgap hdrop => cases h
  | case3 p cs n hgap gap start c rest hdrop _ fault =>
    rename_i hread
    cases h
    subst hp
    have hisGap := isGap_of_gapLength hgap
    rw [hdrop] at hisGap
    refine ⟨[], gap, c :: rest, ?_, trivial, hisGap, ?_, malformed_of_readToken hread⟩
    · rw [← hdrop]
      simp [written, gap]
    · rw [written, List.append_nil]
      exact Position.advance_behind front gap
  | case4 p cs n hgap gap start c rest hdrop _ kind more hread text token =>
    rename_i ih
    subst hp
    have hstart : start = .behind (front ++ gap) := Position.advance_behind front gap
    have hbehind : start.advance text = .behind (front ++ gap ++ text) := by
      rw [hstart, Position.advance_behind]
    obtain ⟨us, g, bad, hcs, hus, hg, hposition, hbad⟩ := ih hbehind (eq_error_of_map h)
    obtain ⟨hwritten, hlaid⟩ := laidOut_cons kind hgap hdrop hcs hus
    refine ⟨_, g, bad, hwritten, hlaid, hg, ?_, hbad⟩
    rw [hposition]
    simp [written, gap, text]

/-! ## Single tokens -/

theorem laidOut_append {front next : List Char} {a b : List Token} :
    LaidOut front next (a ++ b) ↔
      LaidOut front (written b ++ next) a ∧ LaidOut (front ++ written a) next b := by
  induction a generalizing front with
  | nil => simp [LaidOut, written]
  | cons t a ih => simp [LaidOut, written, ih, and_assoc]

/-- The number of bytes before the end of the last of some tokens, or before the beginning of the source. -/
def stopOf (ts : List Token) : Nat := (ts.getLast?.map Token.stop).getD 0

/-- A token of a source, behind the tokens before it. -/
structure Token.StandsIn (source : List Char) (before : List Token) (t : Token) : Prop where
  nonempty : t.start.offset < t.stop
  text_eq : slice source t.start.offset t.stop = .ok t.text.toList
  /-- The stretch from the token before, or from the beginning of the source. -/
  gap_eq : slice source (stopOf before) t.start.offset = .ok t.gap.toList
  isGap : ∃ next, source = written before ++ t.gap.toList ++ (t.text.toList ++ next) ∧
    IsGap t.gap.toList (t.text.toList ++ next)
  start_eq : t.start = .behind (written before ++ t.gap.toList)

theorem stopOf_of_laidOut {next : List Char} {ts : List Token} (h : LaidOut [] next ts) :
    stopOf ts = byteCount (written ts) := by
  rcases List.eq_nil_or_concat ts with rfl | ⟨before, t, rfl⟩
  · rfl
  · rw [List.concat_eq_append] at h ⊢
    obtain ⟨_, _, _, hstart, _⟩ := laidOut_append.mp h
    have hstop : t.stop = byteCount (written (before ++ [t])) := by
      rw [Token.stop_eq, hstart]
      simp [Position.behind, written, Nat.add_assoc]
    simp [stopOf, hstop]

theorem byteCount_pos {cs : List Char} (h : cs ≠ []) : 0 < byteCount cs := by
  cases cs with
  | nil => exact absurd rfl h
  | cons c cs =>
    have := c.utf8Size_pos
    rw [byteCount]
    omega

/-- Where tokens are laid out over a source, each of them stands in it. -/
theorem standsIn_of_laidOut {source next : List Char} {before after : List Token} {t : Token}
    (hsource : source = written (before ++ t :: after) ++ next)
    (h : LaidOut [] next (before ++ t :: after)) : t.StandsIn source before := by
  obtain ⟨hbefore, htext, hgap, hstart, _⟩ := laidOut_append.mp h
  have hstop := stopOf_of_laidOut hbefore
  rw [List.nil_append] at hstart
  have hcut : source = written before ++ t.gap.toList ++ (t.text.toList ++ (written after ++ next)) := by
    rw [hsource]
    simp [written]
  have hoffset : t.start.offset = byteCount (written before ++ t.gap.toList) := by
    rw [hstart]
    rfl
  refine ⟨?_, ?_, ?_, ⟨_, hcut, hgap⟩, hstart⟩
  · have := byteCount_pos htext
    rw [Token.stop_eq]
    omega
  · rw [Token.stop_eq, hoffset, hcut]
    exact slice_append _ _ _
  · rw [hstop, hoffset, hcut, List.append_assoc, byteCount_append]
    exact slice_append _ _ _

/-- Tokens that are laid out do not overlap, and come in the order of the source. -/
theorem pairwise_of_laidOut {front next : List Char} {ts : List Token} (h : LaidOut front next ts) :
    (∀ t ∈ ts, byteCount front ≤ t.start.offset) ∧ ts.Pairwise fun t u => t.stop ≤ u.start.offset := by
  induction ts generalizing front with
  | nil => exact ⟨fun t ht => absurd ht List.not_mem_nil, .nil⟩
  | cons t rest ih =>
    obtain ⟨_, _, hstart, hrest⟩ := h
    obtain ⟨hbounds, hpairwise⟩ := ih hrest
    have hoffset : t.start.offset = byteCount front + byteCount t.gap.toList := by
      rw [hstart]
      exact byteCount_append _ _
    have hbehind : byteCount (front ++ t.gap.toList ++ t.text.toList) = t.stop := by
      rw [Token.stop_eq, hoffset, byteCount_append, byteCount_append]
    rw [hbehind] at hbounds
    refine ⟨?_, List.pairwise_cons.mpr ⟨hbounds, hpairwise⟩⟩
    intro u hu
    rcases List.mem_cons.mp hu with rfl | hu
    · omega
    · have := hbounds u hu
      have := t.stop_eq
      omega

/-! ## The layout of a source -/

/-- If a source can be read, every token of it is not empty, stands where the counts of the characters before
it say, and comes behind a stretch of blanks and complete comments; tokens come in order, do not overlap,
and only blanks and complete comments come behind the last one. If it cannot be read, the fault is placed,
by the same counts, at the first character of a malformed comment, string or rune, and all before it is
tokens and gaps. -/
theorem tokens_laid_out (source : String) :
    (∀ ts, tokens source = .ok ts →
      (∀ before t after, ts = before ++ t :: after → t.StandsIn source.toList before) ∧
        (ts.Pairwise fun t u => t.stop ≤ u.start.offset) ∧
        ∃ last, source.toList = written ts ++ last ∧ IsGap last [] ∧
          slice source.toList (stopOf ts) (byteCount source.toList) = .ok last) ∧
      ∀ e, tokens source = .error e → ∃ ts gap bad,
        source.toList = written ts ++ (gap ++ bad) ∧
          (∀ before t after, ts = before ++ t :: after → t.StandsIn source.toList before) ∧
          IsGap gap bad ∧ Malformed e.fault bad ∧ e.position = .behind (written ts ++ gap) := by
  have hstart : Position.start = .behind [] := rfl
  constructor
  · intro ts hts
    obtain ⟨last, hsource, hlaid, hlast⟩ := laidOut_of_tokensFrom hstart hts
    refine ⟨?_, (pairwise_of_laidOut hlaid).2, last, hsource, hlast, ?_⟩
    · rintro before t after rfl
      exact standsIn_of_laidOut hsource hlaid
    · have hcut := slice_append (written ts) last []
      rw [List.append_nil, ← hsource] at hcut
      rw [stopOf_of_laidOut hlaid, ← hcut, hsource, byteCount_append]
  · intro e he
    obtain ⟨ts, gap, bad, hsource, hlaid, hgap, hposition, hbad⟩ := malformed_of_tokensFrom hstart he
    refine ⟨ts, gap, bad, hsource, ?_, hgap, hbad, by simpa using hposition⟩
    rintro before t after rfl
    exact standsIn_of_laidOut hsource hlaid

/-- A token on the second line, behind a comment on the first, and a string that is never closed. -/
theorem tokens_laid_out_comment_and_open_string :
    let a : Token := ⟨"", "a", .name, ⟨0, 1, 1⟩⟩
    let c : Token := ⟨" //b\n ", "c", .name, ⟨7, 2, 2⟩⟩
    (tokens "a //b\n c" = .ok [a, c] ∧ c.StandsIn "a //b\n c".toList [a]) ∧
      tokens "a \"b" = .error ⟨⟨2, 1, 3⟩, .unterminatedString⟩ ∧
      ∃ ts gap bad, "a \"b".toList = written ts ++ (gap ++ bad) ∧
        Malformed .unterminatedString bad ∧ ⟨2, 1, 3⟩ = Position.behind (written ts ++ gap) := by
  intro a c
  have hread : tokens "a //b\n c" = .ok [a, c] := by cbv
  have hopen : tokens "a \"b" = .error ⟨⟨2, 1, 3⟩, .unterminatedString⟩ := by cbv
  have hstands := ((tokens_laid_out "a //b\n c").1 [a, c] hread).1 [a] c [] rfl
  obtain ⟨ts, gap, bad, hsource, -, -, hbad, hposition⟩ := (tokens_laid_out "a \"b").2 _ hopen
  exact ⟨⟨hread, hstands⟩, hopen, ts, gap, bad, hsource, hbad, hposition⟩

end SpecForest.Source

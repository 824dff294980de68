import SpecForest.Proofs.Source.Partners
import SpecForest.Proofs.Source.Verbatim

/-!
# Arguments between commas

Tokens with balanced brackets are split at the commas that stand outside of all brackets. The pieces have balanced
brackets and no such comma, and with the commas in their places again they are the tokens that were split. A comma at the
end has no piece behind it; every other comma has one, which is empty if the next token is a comma, too.

The splitting of trees and the splitting of a stretch of the table of all tokens are the same. The stretch may be any
part of the table with balanced brackets: their partners are in the same part.
-/

namespace SpecForest.Source

/-! ## Commas outside of brackets -/

/-- A comma stands at a position, and all brackets before it are closed. -/
def OuterComma (ts : List Token) (i : Nat) : Prop :=
  ts[i]?.map Token.kind = some .comma ∧ Balanced (brackets (ts.take i))

instance (ts : List Token) (i : Nat) : Decidable (OuterComma ts i) :=
  inferInstanceAs (Decidable (_ ∧ _))

/-- The number of commas outside of brackets. -/
def outerCommas (ts : List Token) : Nat :=
  (List.range ts.length).countP (OuterComma ts ·)

/-- The last token is a comma outside of brackets. -/
def EndsInComma (ts : List Token) : Prop := OuterComma ts (ts.length - 1)

instance (ts : List Token) : Decidable (EndsInComma ts) :=
  inferInstanceAs (Decidable (OuterComma _ _))

theorem SelfContained.not_outerComma {ts : List Token} (h : SelfContained ts) (i : Nat) : ¬ OuterComma ts i := by
  rintro ⟨hkind, hbalanced⟩
  obtain ⟨c, hc, hcomma⟩ := Option.map_eq_some_iff.mp hkind
  obtain ⟨hlt, rfl⟩ := List.getElem?_eq_some_iff.mp hc
  have hsplit : ts = ts.take i ++ ts[i] :: ts.drop (i + 1) := by simp
  exact h.no_comma _ _ _ hsplit hcomma hbalanced

theorem SelfContained.not_outerComma_append {piece : List Token} (h : SelfContained piece) (rest : List Token) {i : Nat}
    (hi : i < piece.length) : ¬ OuterComma (piece ++ rest) i := by
  rw [OuterComma, List.getElem?_append_left hi, List.take_append_of_le_length (Nat.le_of_lt hi)]
  exact h.not_outerComma i

theorem SelfContained.outerCommas_eq {ts : List Token} (h : SelfContained ts) : outerCommas ts = 0 := by
  refine List.countP_eq_zero.mpr fun i _ => ?_
  simpa using h.not_outerComma i

theorem balanced_append_iff {a : List Token} (ha : Balanced (brackets a)) (b : List Token) :
    Balanced (brackets (a ++ b)) ↔ Balanced (brackets b) := by
  rw [balanced_brackets_iff, balanced_brackets_iff, brackets_append, openAfter_append, ha.openAfter_eq,
    Option.bind_some]

section

variable {piece rest : List Token} {comma : Token} (hpiece : SelfContained piece) (hcomma : comma.kind = .comma)

include hpiece hcomma

/-- The first comma outside of brackets is the one behind the first piece. -/
theorem outerComma_first : OuterComma (piece ++ comma :: rest) piece.length := by
  constructor
  · simp [hcomma]
  · rw [List.take_left]
    exact hpiece.balanced

/-- Up to there it is the only one. -/
theorem outerComma_iff_of_le {i : Nat} (hi : i ≤ piece.length) :
    OuterComma (piece ++ comma :: rest) i ↔ i = piece.length := by
  constructor
  · intro h
    by_contra hne
    exact hpiece.not_outerComma_append (comma :: rest) (Nat.lt_of_le_of_ne hi hne) h
  · rintro rfl
    exact outerComma_first hpiece hcomma

theorem outerComma_behind (i : Nat) :
    OuterComma (piece ++ comma :: rest) (piece.length + 1 + i) ↔ OuterComma rest i := by
  have hplain : Balanced (brackets (piece ++ [comma])) := by
    rw [balanced_append_iff hpiece.balanced, brackets_plain (by rw [hcomma]; rfl)]
    exact .nil
  have hsplit : piece ++ comma :: rest = piece ++ [comma] ++ rest := by simp
  have hlength : piece.length + 1 = (piece ++ [comma]).length := by simp
  rw [OuterComma, OuterComma, hsplit, hlength, List.getElem?_append_right (Nat.le_add_right _ _),
    Nat.add_sub_cancel_left, List.take_length_add_append, balanced_append_iff hplain]

theorem outerCommas_comma : outerCommas (piece ++ comma :: rest) = outerCommas rest + 1 := by
  have hlength : (piece ++ comma :: rest).length = piece.length + 1 + rest.length := by
    simp
    omega
  have hbefore : (List.range piece.length).countP (OuterComma (piece ++ comma :: rest) ·) = 0 := by
    refine List.countP_eq_zero.mpr fun i hi => ?_
    simpa using hpiece.not_outerComma_append (comma :: rest) (List.mem_range.mp hi)
  have hfirst : OuterComma (piece ++ comma :: rest) piece.length := outerComma_first hpiece hcomma
  rw [outerCommas, hlength, List.range_add, List.countP_append, List.range_succ, List.countP_append, hbefore,
    List.countP_map]
  simp only [Function.comp_def, outerComma_behind hpiece hcomma, List.countP_singleton, hfirst, decide_true, if_true,
    Nat.zero_add]
  exact Nat.add_comm _ _

theorem endsInComma_iff : EndsInComma (piece ++ comma :: rest) ↔ rest = [] ∨ EndsInComma rest := by
  have hlast : (piece ++ comma :: rest).length - 1 = piece.length + rest.length := by simp
  rw [EndsInComma, hlast]
  cases rest with
  | nil => simpa using outerComma_first hpiece hcomma
  | cons t rest =>
    rw [List.length_cons, ← Nat.add_assoc, Nat.add_right_comm, outerComma_behind hpiece hcomma]
    simp [EndsInComma]

end

/-! ## Pieces -/

/-- Tokens, and pieces into which they are cut at commas: nothing, one last piece, or a piece with a comma behind it. -/
inductive CutAtCommas : List Token → List (List Token) → Prop
  | nil : CutAtCommas [] []
  | last {piece : List Token} : SelfContained piece → piece ≠ [] → CutAtCommas piece [piece]
  | comma {piece rest : List Token} {comma : Token} {pieces : List (List Token)} :
      SelfContained piece → comma.kind = .comma → CutAtCommas rest pieces →
      CutAtCommas (piece ++ comma :: rest) (piece :: pieces)

/-- The tokens of trees are cut into those of the pieces into which the trees are split. -/
theorem cutAtCommas_splitArguments {trees : List TokenTree} (h : AllFit trees) :
    CutAtCommas (TokenTree.allTokens trees) ((splitArguments trees).map TokenTree.allTokens) := by
  induction trees using splitArguments_induct with
  | nil => exact .nil
  | single ts hne hno =>
    rw [splitArguments_single hne hno]
    exact .last (selfContained_of_trees h hno rfl) (List.ne_nil_of_length_pos (width_pos hne))
  | comma ts comma rest hno hcomma ih =>
    obtain ⟨hts, hrest⟩ := allFit_append.mp h
    rw [splitArguments_comma hno hcomma, allTokens_append]
    exact .comma (selfContained_of_trees hts hno rfl) hcomma (ih hrest.2)

/-- Pieces with commas behind them, as far as there are commas. -/
def interleave : (pieces : List (List Token)) → (commas : List Token) → List Token
  | [], _ => []
  | piece :: pieces, [] => piece ++ interleave pieces []
  | piece :: pieces, comma :: commas => piece ++ comma :: interleave pieces commas

/-- The pieces are those between the commas outside of brackets. -/
structure SplitsExactly (ts : List Token) (pieces : List (List Token)) : Prop where
  contained : ∀ piece ∈ pieces, SelfContained piece
  /-- The tokens are the pieces with a comma between each two, and one at the end if the tokens end in a comma. -/
  joined : ∃ commas, interleave pieces commas = ts ∧ (∀ comma ∈ commas, comma.kind = .comma) ∧
    commas.length = if EndsInComma ts then pieces.length else pieces.length - 1
  /-- There is one piece more than there are commas, unless there is nothing or a comma at the end. -/
  count : pieces.length = outerCommas ts + 1 - if ts = [] ∨ EndsInComma ts then 1 else 0
  /-- An empty piece stands in front of a comma that is the first token or follows on another comma. -/
  empty : ∀ i, ⟨i, i⟩ ∈ layOut 0 pieces ↔ OuterComma ts i ∧ (i = 0 ∨ OuterComma ts (i - 1))

/-! ## Empty pieces -/

theorem mem_layOut_cons {start i : Nat} {piece : List Token} {pieces : List (List Token)} :
    ⟨i, i⟩ ∈ layOut start (piece :: pieces) ↔
      (i = start ∧ piece.length = 0) ∨ ⟨i, i⟩ ∈ layOut (start + piece.length + 1) pieces := by
  have hfirst : i = start ∧ i = start + piece.length ↔ i = start ∧ piece.length = 0 := by omega
  rw [layOut, List.mem_cons, Stretch.mk.injEq, hfirst]

theorem mem_layOut_add (n start : Nat) {i : Nat} {pieces : List (List Token)} :
    ⟨n + i, n + i⟩ ∈ layOut (n + start) pieces ↔ ⟨i, i⟩ ∈ layOut start pieces := by
  induction pieces generalizing start with
  | nil => simp [layOut]
  | cons piece pieces ih =>
    have hnext : n + start + piece.length + 1 = n + (start + piece.length + 1) := by omega
    rw [mem_layOut_cons, mem_layOut_cons, hnext, ih, Nat.add_left_cancel_iff]

theorem le_of_mem_layOut {start i : Nat} {pieces : List (List Token)} (h : ⟨i, i⟩ ∈ layOut start pieces) :
    start ≤ i := by
  induction pieces generalizing start with
  | nil => cases h
  | cons piece pieces ih =>
    rcases mem_layOut_cons.mp h with ⟨rfl, -⟩ | h
    · exact Nat.le_refl i
    · have := ih h
      omega

namespace CutAtCommas

variable {ts : List Token} {pieces : List (List Token)}

theorem contained (h : CutAtCommas ts pieces) : ∀ piece ∈ pieces, SelfContained piece := by
  induction h with
  | nil => simp
  | last hpiece _ => simpa using hpiece
  | comma hpiece _ _ ih => exact List.forall_mem_cons.mpr ⟨hpiece, ih⟩

theorem length_eq (h : CutAtCommas ts pieces) :
    pieces.length + (if ts = [] ∨ EndsInComma ts then 1 else 0) = outerCommas ts + 1 := by
  induction h with
  | nil => rfl
  | last hpiece hne =>
    have hends : ¬ EndsInComma _ := hpiece.not_outerComma _
    simp [hne, hends, hpiece.outerCommas_eq]
  | comma hpiece hcomma _ ih =>
    rw [outerCommas_comma hpiece hcomma, ← ih, List.length_cons]
    simp only [endsInComma_iff hpiece hcomma, List.append_eq_nil_iff, reduceCtorEq, and_false, false_or]
    exact Nat.add_right_comm _ _ _

theorem exists_commas (h : CutAtCommas ts pieces) :
    ∃ commas, interleave pieces commas = ts ∧ (∀ comma ∈ commas, comma.kind = .comma) ∧
      commas.length = if EndsInComma ts then pieces.length else pieces.length - 1 := by
  induction h with
  | nil => exact ⟨[], rfl, by simp, by simp⟩
  | last hpiece hne =>
    have hends : ¬ EndsInComma _ := hpiece.not_outerComma _
    exact ⟨[], by simp [interleave], by simp, by simp [hends]⟩
  | @comma piece rest comma pieces hpiece hcomma hcut ih =>
    obtain ⟨commas, hjoin, hkinds, hlength⟩ := ih
    have hcount := hcut.length_eq
    refine ⟨comma :: commas, by rw [interleave, hjoin], List.forall_mem_cons.mpr ⟨hcomma, hkinds⟩, ?_⟩
    rw [List.length_cons, List.length_cons, hlength]
    simp only [endsInComma_iff hpiece hcomma]
    by_cases hrest : rest = []
    · subst hrest
      have hnone : ¬ EndsInComma [] := by decide
      have hpieces : pieces.length = 0 := Nat.succ.inj hcount
      simp [hnone, hpieces]
    · by_cases hends : EndsInComma rest
      · simp [hends]
      · simp only [hends, hrest, or_self, if_false] at hcount ⊢
        omega

theorem empty_iff (h : CutAtCommas ts pieces) (i : Nat) :
    ⟨i, i⟩ ∈ layOut 0 pieces ↔ OuterComma ts i ∧ (i = 0 ∨ OuterComma ts (i - 1)) := by
  induction h generalizing i with
  | nil => simp [layOut, OuterComma]
  | last hpiece hne =>
    have hnonempty : List.length _ ≠ 0 := mt List.length_eq_zero_iff.mp hne
    rw [mem_layOut_cons]
    simp [hpiece.not_outerComma, hnonempty, layOut]
  | @comma piece rest comma pieces hpiece hcomma hcut ih =>
    rw [mem_layOut_cons, Nat.zero_add]
    rcases Nat.lt_or_ge piece.length i with hlt | hge
    · -- behind the first comma the positions are those of the rest, and before the first of them is a comma
      obtain ⟨j, rfl⟩ := Nat.exists_eq_add_of_lt hlt
      have hlaid : ⟨piece.length + j + 1, piece.length + j + 1⟩ ∈ layOut (piece.length + 1) pieces ↔
          ⟨j, j⟩ ∈ layOut 0 pieces := by
        rw [Nat.add_right_comm]
        exact mem_layOut_add (piece.length + 1) 0
      have houter : OuterComma (piece ++ comma :: rest) (piece.length + j + 1) ↔ OuterComma rest j := by
        rw [Nat.add_right_comm]
        exact outerComma_behind hpiece hcomma j
      have hprevious : OuterComma (piece ++ comma :: rest) (piece.length + j) ↔ j = 0 ∨ OuterComma rest (j - 1) := by
        cases j with
        | zero => simpa using outerComma_first hpiece hcomma
        | succ j =>
          rw [← Nat.add_assoc, Nat.add_right_comm, outerComma_behind hpiece hcomma]
          simp
      rw [hlaid, ih, houter, Nat.add_sub_cancel, hprevious]
      simp
    · -- up to the first comma there is no piece but the first one
      have hlaid : ⟨i, i⟩ ∉ layOut (piece.length + 1) pieces := by
        intro hmem
        have := le_of_mem_layOut hmem
        omega
      have hprevious : i - 1 ≤ piece.length := Nat.le_trans (Nat.sub_le i 1) hge
      rw [outerComma_iff_of_le hpiece hcomma hge, outerComma_iff_of_le hpiece hcomma hprevious]
      simp only [hlaid, or_false]
      omega

end CutAtCommas

theorem CutAtCommas.splitsExactly {ts : List Token} {pieces : List (List Token)} (h : CutAtCommas ts pieces) :
    SplitsExactly ts pieces where
  contained := h.contained
  joined := h.exists_commas
  count := Nat.eq_sub_of_add_eq h.length_eq
  empty := h.empty_iff

/-! ## Balanced stretches of a paired table -/

theorem Checked.exists_of_bind {α β : Type} {x : Checked α} {f : α → Checked β} {b : β} (h : (x >>= f) = .ok b) :
    ∃ a, x = .ok a ∧ f a = .ok b := by
  cases x with
  | error e => cases h
  | ok a => exact ⟨a, rfl, h⟩

theorem getElem?_setPartner {table paired : List Slot} {i j k : Nat} (h : setPartner table i j = .ok paired)
    (hk : i ≠ k) : paired[k]? = table[k]? := by
  obtain ⟨s, -, hset⟩ := Checked.exists_of_bind h
  cases hset
  exact List.getElem?_set_ne hk

/-- Pairing from an index on changes nothing before it but the brackets that are open. -/
theorem pairFrom_keeps {opened : List (Nat × Delimiter)} {count i k : Nat} {table paired : List Slot}
    (h : pairFrom opened count i table = .ok (.ok paired)) (hk : k < i) (hopen : ∀ o ∈ opened, o.1 ≠ k) :
    paired[k]? = table[k]? := by
  induction count generalizing opened i table with
  | zero =>
    cases opened with
    | nil =>
      cases h
      rfl
    | cons o outer =>
      obtain ⟨s, -, herror⟩ := Checked.exists_of_bind h
      cases herror
  | succ count ih =>
    obtain ⟨s, -, hstep⟩ := Checked.exists_of_bind h
    have hi : i ≠ k := by omega
    split at hstep
    · rename_i d hkind
      exact ih hstep (by omega) (List.forall_mem_cons.mpr ⟨hi, hopen⟩)
    · split at hstep
      · cases hstep
      · obtain ⟨hj, houter⟩ := List.forall_mem_cons.mp hopen
        split at hstep
        · obtain ⟨closed, hclosed, hstep⟩ := Checked.exists_of_bind hstep
          obtain ⟨both, hboth, hstep⟩ := Checked.exists_of_bind hstep
          rw [ih hstep (by omega) houter, getElem?_setPartner hboth hj, getElem?_setPartner hclosed hi]
        · obtain ⟨o, -, herror⟩ := Checked.exists_of_bind hstep
          cases herror
    · exact ih hstep (by omega) hopen

/-- The slots of the trees that are read next stand behind those of all before. -/
theorem frameSlots_append (trees current : List TokenTree) (frames : List Frame) :
    frameSlots (trees.reverse ++ current) frames =
      frameSlots current frames ++ slotsAll (frameTokens current frames).length trees := by
  induction trees generalizing current with
  | nil => simp [slotsAll]
  | cons t trees ih =>
    rw [List.reverse_cons, List.append_assoc, List.singleton_append, ih, frameSlots_push, frameTokens_push, slotsAll,
      List.append_assoc, List.length_append]

theorem lt_of_mem_openIndices {frames : List Frame} {o : Nat × Delimiter} (h : o ∈ openIndices frames)
    (current : List TokenTree) : o.1 < (frameTokens current frames).length := by
  induction frames generalizing current with
  | nil => cases h
  | cons f outer ih =>
    rw [frameTokens, List.length_append, List.length_cons]
    rcases List.mem_cons.mp h with rfl | h
    · omega
    · have := ih h f.before
      omega

/-- A paired table has the slots of some trees wherever their tokens stand in it, whatever stands around them. -/
theorem Listing.lays_of_paired (source : List Char) {before after : List Token} {trees : List TokenTree}
    {table : List Slot} (hfit : AllFit trees)
    (hpaired : pairFrom [] (before ++ (TokenTree.allTokens trees ++ after)).length 0
      ((before ++ (TokenTree.allTokens trees ++ after)).map Token.slot) = .ok (.ok table)) :
    Listing.Lays ⟨source, table⟩ before.length trees := by
  obtain ⟨all, hgroup, rfl⟩ := (pairFrom_eq_ok_iff _ table).mp hpaired
  have hbefore : Extendable (brackets before) := by
    have hbalanced := (exists_group_iff_balanced _).mp ⟨all, hgroup⟩
    rw [brackets_append] at hbalanced
    exact ⟨_, hbalanced⟩
  obtain ⟨frames, current, rfl, hread⟩ := hbefore.exists_frames
  rw [hread, groupFrom_allTokens hfit] at hgroup
  have hrest := pairFrom_eq after frames (trees.reverse ++ current)
  have hindex := length_frameSlots (trees.reverse ++ current) frames
  rw [frameSlots_append, List.length_append, length_frameSlots, length_slotsAll] at hindex
  rw [hgroup, frameSlots_append, List.append_assoc] at hrest
  -- behind the trees pairing leaves their slots as they are: all are before the index, and none of them is open
  have hprefix : slotsAll (frameTokens current frames).length trees <+:
      (slotsAll 0 all).drop (frameTokens current frames).length := by
    refine List.prefix_iff_getElem?.mpr fun j hj => ?_
    rw [length_slotsAll] at hj
    have hopen : ∀ o ∈ openIndices frames, o.1 ≠ (frameTokens current frames).length + j := by
      intro o ho
      have := lt_of_mem_openIndices ho current
      omega
    rw [List.getElem?_drop, pairFrom_keeps hrest (by omega) hopen,
      List.getElem?_append_right (by rw [length_frameSlots]; omega), length_frameSlots, Nat.add_sub_cancel_left,
      List.getElem?_append_left (by rw [length_slotsAll]; exact hj), List.getElem?_eq_getElem]
  obtain ⟨more, hmore⟩ := hprefix
  exact ⟨more, hmore.symm⟩

/-! ## Exact splitting -/

theorem elementsIn_append {α : Type} (a b c : List α) :
    elementsIn (a ++ (b ++ c)) a.length (a.length + b.length) = .ok b := by
  rw [elementsIn, if_pos ⟨Nat.le_add_right _ _, by simp⟩, List.drop_left, Nat.add_sub_cancel_left, List.take_left]

/-- In their places among all tokens, the stretches have the tokens of the pieces. -/
theorem CutAtCommas.elementsIn_layOut {ts : List Token} {pieces : List (List Token)} (h : CutAtCommas ts pieces)
    (before after : List Token) :
    List.Forall₂ (fun a piece => elementsIn (before ++ (ts ++ after)) a.start a.stop = .ok piece)
      (layOut before.length pieces) pieces := by
  induction h generalizing before with
  | nil => exact .nil
  | last hpiece _ => exact .cons (elementsIn_append before _ after) .nil
  | @comma piece rest comma pieces _ _ _ ih =>
    have hfirst := elementsIn_append before piece (comma :: (rest ++ after))
    have hrest := ih (before ++ (piece ++ [comma]))
    rw [List.length_append, List.length_append, ← Nat.add_assoc] at hrest
    simp only [List.append_assoc, List.cons_append] at hfirst hrest ⊢
    exact .cons hfirst hrest

/-- In a paired table, a stretch whose brackets are balanced is split into the arguments of its trees: these have the
tokens of the stretches, which stand one behind the other with one token between each two. They are the pieces between
the commas outside of brackets. -/
theorem stretch_split_at_outer_commas (source : List Char) {before span after : List Token} {table : List Slot}
    (hpaired : pairFrom [] (before ++ (span ++ after)).length 0 ((before ++ (span ++ after)).map Token.slot) =
      .ok (.ok table))
    (hspan : Balanced (brackets span)) :
    ∃ trees pieces, group span = .ok trees ∧ (splitArguments trees).map TokenTree.allTokens = pieces ∧
      (∀ fuel, span.length < fuel →
        Listing.split ⟨source, table⟩ fuel ⟨before.length, before.length + span.length⟩ =
          .ok (layOut before.length pieces)) ∧
      List.Forall₂ (fun a piece => elementsIn (before ++ (span ++ after)) a.start a.stop = .ok piece)
        (layOut before.length pieces) pieces ∧
      SplitsExactly span pieces := by
  obtain ⟨trees, hfit, rfl⟩ := hspan.exists_trees
  have hlays := Listing.lays_of_paired source hfit hpaired
  have hcut := cutAtCommas_splitArguments hfit
  refine ⟨trees, _, (group_eq_ok_iff _ trees).mpr ⟨hfit, rfl⟩, rfl, ?_, hcut.elementsIn_layOut before after,
    hcut.splitsExactly⟩
  intro fuel hfuel
  exact Listing.splitFrom_eq hlays hfit rfl (Nat.lt_of_le_of_lt (length_le_width trees) hfuel)

/-- In parentheses, a comma in front and one at the end, and between them a call with a comma of its own. -/
theorem stretch_split_at_outer_commas_nested_call :
    let token (i : Nat) (text : String) (kind : TokenKind) : Token := ⟨"", text, kind, ⟨i, 1, i + 1⟩⟩
    let call := [token 2 "f" .name, token 3 "(" (.opening .paren), token 4 "x" .name, token 5 "," .comma,
      token 6 "y" .name, token 7 ")" (.closing .paren)]
    let span := token 1 "," .comma :: (call ++ [token 8 "," .comma])
    let all := token 0 "(" (.opening .paren) :: (span ++ [token 9 ")" (.closing .paren)])
    ∃ table, pairFrom [] all.length 0 (all.map Token.slot) = .ok (.ok table) ∧ Balanced (brackets span) ∧
      Listing.split ⟨[], table⟩ 9 ⟨1, 9⟩ = .ok [⟨1, 1⟩, ⟨2, 8⟩] ∧ outerCommas span = 2 ∧
      SplitsExactly span [[], call] := by
  intro token call span all
  obtain ⟨table, hpaired⟩ : ∃ table, pairFrom [] all.length 0 (all.map Token.slot) = .ok (.ok table) := ⟨_, rfl⟩
  have hspan : Balanced (brackets span) := by decide
  obtain ⟨trees, pieces, hgroup, rfl, hsplit, -, hexact⟩ :=
    @stretch_split_at_outer_commas [] [token 0 "(" (.opening .paren)] span [token 9 ")" (.closing .paren)] table hpaired
      hspan
  cases hgroup
  exact ⟨table, hpaired, hspan, hsplit 9 (by decide), by decide, hexact⟩

end SpecForest.Source

import SpecForest.Proofs.Source.Locality
import SpecForest.Proofs.Source.Partners

/-!
# A blank more between two tokens

A blank behind a token makes the next gap larger, and changes nothing else about the tokens: not their kinds, not their
texts, and not the partners of their brackets. Those behind the blank move by its bytes.
-/

namespace SpecForest.Source

/-! ## Tokens that move -/

/-- The same token, further on by a number of bytes. -/
structure Token.MovedBy (n : Nat) (t u : Token) : Prop where
  kind_eq : u.kind = t.kind
  text_eq : u.text = t.text
  start_eq : u.start.offset = t.start.offset + n
  stop_eq : u.stop = t.stop + n

theorem Token.movedBy_of_bare {n : Nat} {t u : Token} (hbare : u.bare = t.bare)
    (hstart : u.start.offset = t.start.offset + n) : t.MovedBy n u := by
  have hkind : u.kind = t.kind := by rw [← u.bare_kind, hbare, t.bare_kind]
  have htext : u.text = t.text := by rw [← u.bare_text, hbare, t.bare_text]
  refine ⟨hkind, htext, hstart, ?_⟩
  rw [Token.stop, Token.stop, htext, hstart]
  omega

/-- Gaps and texts tell where tokens stand. -/
theorem StandFrom.movedBy {m n : Nat} {ts us : List Token} (hts : StandFrom m ts) (hus : StandFrom (m + n) us)
    (hbare : us.map Token.bare = ts.map Token.bare) : List.Forall₂ (Token.MovedBy n) ts us := by
  induction ts generalizing m us with
  | nil =>
    rw [List.map_nil, List.map_eq_nil_iff] at hbare
    subst hbare
    exact .nil
  | cons t ts ih =>
    obtain ⟨u, us, rfl, hu, hrest⟩ := List.map_eq_cons_iff.mp hbare
    obtain ⟨hstart, -, hts⟩ := hts
    obtain ⟨hstart', -, hus⟩ := hus
    have hgap : u.gap = t.gap := by rw [← u.bare_gap, hu, t.bare_gap]
    have htext : u.text = t.text := by rw [← u.bare_text, hu, t.bare_text]
    rw [hgap] at hstart' hus
    rw [htext, Nat.add_right_comm m, Nat.add_right_comm _ n] at hus
    exact .cons (Token.movedBy_of_bare hu (by omega)) (ih hts hus hrest)

/-- A text that begins further on has the same tokens, further on by as much. -/
theorem tokensFrom_movedBy {p q : Position} {n : Nat} {cs : List Char} {ts : List Token}
    (h : tokensFrom p cs = .ok ts) (hq : q.offset = p.offset + n) :
    ∃ us, tokensFrom q cs = .ok us ∧ List.Forall₂ (Token.MovedBy n) ts us := by
  obtain ⟨us, hus, hbare⟩ := tokensFrom_bare h q
  obtain ⟨-, -, hstand⟩ := tokensFrom_lossless h
  obtain ⟨-, -, hstand'⟩ := tokensFrom_lossless hus
  rw [hq] at hstand'
  exact ⟨us, hus, hstand.movedBy hstand' hbare⟩

theorem map_kind_of_movedBy {n : Nat} {ts us : List Token} (h : List.Forall₂ (Token.MovedBy n) ts us) :
    us.map Token.kind = ts.map Token.kind := by
  induction h with
  | nil => rfl
  | cons ht _ ih => rw [List.map_cons, List.map_cons, ht.kind_eq, ih]

theorem forall₂_widen {n : Nat} (gap : List Char) {ts us : List Token} (h : List.Forall₂ (Token.MovedBy n) ts us) :
    List.Forall₂ (Token.MovedBy n) ts (widen gap us) := by
  cases h with
  | nil => exact .nil
  | cons ht hrest => exact .cons ⟨ht.kind_eq, ht.text_eq, ht.start_eq, ht.stop_eq⟩ hrest

/-! ## Partners -/

mutual

/-- Trees can be put over any tokens of the same kinds, and brackets have the same partners then. -/
theorem TokenTree.exists_of_kinds {t : TokenTree} (hfit : t.Fits) {us : List Token}
    (h : us.map Token.kind = t.tokens.map Token.kind) :
    ∃ u : TokenTree, u.Fits ∧ u.tokens = us ∧ ∀ i, (u.slots i).map Slot.partner = (t.slots i).map Slot.partner := by
  cases t with
  | token t =>
    obtain ⟨u, rfl, hu⟩ := List.map_eq_singleton_iff.mp h
    refine ⟨.token u, ?_, rfl, fun i => rfl⟩
    rw [TokenTree.Fits, hu]
    exact hfit
  | group opening closing d inner =>
    obtain ⟨hopen, hclose, hinner⟩ := hfit
    rw [TokenTree.tokens, List.map_append, List.map_cons] at h
    obtain ⟨us, vs, rfl, hus, hvs⟩ := List.map_eq_append_iff.mp h
    obtain ⟨o, is, rfl, ho, his⟩ := List.map_eq_cons_iff.mp hus
    obtain ⟨c, rfl, hc⟩ := List.map_eq_singleton_iff.mp hvs
    obtain ⟨trees, hfits, htokens, hpartners⟩ := exists_of_kindsAll hinner his
    refine ⟨.group o c d trees, ⟨ho.trans hopen, hc.trans hclose, hfits⟩, ?_, ?_⟩
    · rw [TokenTree.tokens, htokens]
    · intro i
      have hlength : (TokenTree.allTokens trees).length = (TokenTree.allTokens inner).length := by
        rw [htokens, ← List.length_map Token.kind, his, List.length_map]
      rw [TokenTree.slots, TokenTree.slots, List.map_cons, List.map_cons, List.map_append, List.map_append, hpartners,
        hlength]
      rfl

theorem exists_of_kindsAll {trees : List TokenTree} (hfit : AllFit trees) {us : List Token}
    (h : us.map Token.kind = (TokenTree.allTokens trees).map Token.kind) :
    ∃ trees', AllFit trees' ∧ TokenTree.allTokens trees' = us ∧
      ∀ i, (slotsAll i trees').map Slot.partner = (slotsAll i trees).map Slot.partner := by
  cases trees with
  | nil => exact ⟨[], trivial, (List.map_eq_nil_iff.mp h).symm, fun i => rfl⟩
  | cons t rest =>
    obtain ⟨ht, hrest⟩ := hfit
    rw [TokenTree.allTokens, List.map_append] at h
    obtain ⟨us, vs, rfl, hus, hvs⟩ := List.map_eq_append_iff.mp h
    obtain ⟨u, hufit, hutokens, hupartners⟩ := TokenTree.exists_of_kinds ht hus
    obtain ⟨trees, hfits, htokens, hpartners⟩ := exists_of_kindsAll hrest hvs
    refine ⟨u :: trees, ⟨hufit, hfits⟩, by rw [TokenTree.allTokens, hutokens, htokens], ?_⟩
    intro i
    have hlength : u.tokens.length = t.tokens.length := by
      rw [hutokens, ← List.length_map Token.kind, hus, List.length_map]
    rw [slotsAll, slotsAll, List.map_append, List.map_append, hupartners, hpartners, hlength]

end

/-- The partners of brackets depend on nothing but kinds. -/
theorem pairFrom_of_kinds {ts us : List Token} {table : List Slot}
    (h : pairFrom [] ts.length 0 (ts.map Token.slot) = .ok (.ok table))
    (hkinds : us.map Token.kind = ts.map Token.kind) :
    ∃ table', pairFrom [] us.length 0 (us.map Token.slot) = .ok (.ok table') ∧
      table'.map Slot.partner = table.map Slot.partner := by
  obtain ⟨trees, htrees, rfl⟩ := (pairFrom_eq_ok_iff ts table).mp h
  obtain ⟨hfit, rfl⟩ := (group_eq_ok_iff ts trees).mp htrees
  obtain ⟨trees', hfit', rfl, hpartners⟩ := exists_of_kindsAll hfit hkinds
  have hgroup := (group_eq_ok_iff _ _).mpr ⟨hfit', rfl⟩
  exact ⟨slotsAll 0 trees', (pairFrom_eq_ok_iff _ _).mpr ⟨trees', hgroup, rfl⟩, hpartners 0⟩

/-! ## The blank -/

/-- Behind some tokens of a text, a blank moves all others and leaves these as they are. -/
theorem tokensFrom_insert_blank {p : Position} {ts us : List Token} {next : List Char} {w : Char}
    (h : tokensFrom p (written ts ++ next) = .ok (ts ++ us)) (hw : Text.isBlank w = true) :
    ∃ vs, tokensFrom p (written ts ++ w :: next) = .ok (ts ++ vs) ∧
      List.Forall₂ (Token.MovedBy w.utf8Size) us vs := by
  have hoffset : ((p.advance (written ts)).advance [w]).offset = (p.advance (written ts)).offset + w.utf8Size := by
    rw [Position.advance_offset, byteCount, byteCount, Nat.add_zero]
  obtain ⟨vs, hvs, hmoved⟩ := tokensFrom_movedBy (tokensFrom_written h) hoffset
  have hgap : gapLength ([w] ++ next) = shiftBy [w].length (gapLength next) :=
    (IsGap.blank hw (.nil next)).gapLength_append
  refine ⟨widen [w] vs, ?_, forall₂_widen [w] hmoved⟩
  calc tokensFrom p (written ts ++ w :: next)
      = (tokensFrom (p.advance (written ts)) ([w] ++ next)).map (ts ++ ·) :=
        tokensFrom_append_blank hw (tokensFrom_cut h) next
    _ = ((Except.ok vs : Except LexError (List Token)).map (widen [w])).map (ts ++ ·) := by
        rw [tokensFrom_gap _ hgap, hvs]
    _ = .ok (ts ++ widen [w] vs) := rfl

/-- A source that can be read and has its brackets paired is read with a blank more behind any of its tokens. The tokens
up to there are the same. Those behind it have the same kinds and texts, and stand further on by the bytes of the blank.
All brackets have the partners that they had. -/
theorem blank_behind_token {source : String} {before after : List Token} {t : Token} {table : List Slot} {w : Char}
    (hread : tokens source = .ok (before ++ t :: after))
    (hpair : pairFrom [] (before ++ t :: after).length 0 ((before ++ t :: after).map Token.slot) = .ok (.ok table))
    (hw : Text.isBlank w = true) :
    ∃ front back moved table', source.toList = front ++ back ∧ byteCount front = t.stop ∧
      tokens (String.ofList (front ++ w :: back)) = .ok (before ++ t :: moved) ∧
      List.Forall₂ (Token.MovedBy w.utf8Size) after moved ∧
      pairFrom [] (before ++ t :: moved).length 0 ((before ++ t :: moved).map Token.slot) = .ok (.ok table') ∧
      table'.map Slot.partner = table.map Slot.partner := by
  obtain ⟨last, hsource, hstand⟩ := tokensFrom_lossless hread
  rw [List.append_cons, written_append, List.append_assoc] at hsource
  rw [List.append_cons, standFrom_append] at hstand
  have hstop : t.stop = byteCount (written (before ++ [t])) := by
    rw [stop_getLast hstand.1 List.getLast?_concat, Position.start, Nat.zero_add]
  have hchars : tokensFrom .start (written (before ++ [t]) ++ (written after ++ last)) =
      .ok (before ++ [t] ++ after) := by
    rw [← hsource, ← List.append_cons]
    exact hread
  obtain ⟨moved, hmore, hmoved⟩ := tokensFrom_insert_blank hchars hw
  rw [← List.append_cons] at hmore
  have hkinds : (before ++ t :: moved).map Token.kind = (before ++ t :: after).map Token.kind := by
    rw [List.map_append, List.map_append, List.map_cons, List.map_cons, map_kind_of_movedBy hmoved]
  obtain ⟨table', htable', hpartners⟩ := pairFrom_of_kinds hpair hkinds
  refine ⟨_, _, moved, table', hsource, hstop.symm, ?_, hmoved, htable', hpartners⟩
  rw [tokens, String.toList_ofList]
  exact hmore

/-- A blank of three bytes between a number that ends in a dot and a sign. -/
theorem blank_behind_token_wide_blank :
    let number : Token := ⟨"", "1.", .float, ⟨1, 1, 2⟩⟩
    let before : List Token := [⟨"", "(", .opening .paren, ⟨0, 1, 1⟩⟩]
    let after : List Token := [⟨"", "-", .symbol '-', ⟨3, 1, 4⟩⟩, ⟨"", ")", .closing .paren, ⟨4, 1, 5⟩⟩]
    let table : List Slot := [⟨.opening .paren, ⟨0, 1, 1⟩, 1, some 3⟩, ⟨.float, ⟨1, 1, 2⟩, 3, none⟩,
      ⟨.symbol '-', ⟨3, 1, 4⟩, 4, none⟩, ⟨.closing .paren, ⟨4, 1, 5⟩, 5, some 0⟩]
    tokens "(1.-)" = .ok (before ++ number :: after) ∧
      ∃ front back moved table', "(1.-)".toList = front ++ back ∧ byteCount front = 3 ∧
        tokens (String.ofList (front ++ '\u3000' :: back)) = .ok (before ++ number :: moved) ∧
        List.Forall₂ (Token.MovedBy 3) after moved ∧
        pairFrom [] (before ++ number :: moved).length 0 ((before ++ number :: moved).map Token.slot) =
          .ok (.ok table') ∧
        table'.map Slot.partner = table.map Slot.partner := by
  intro number before after table
  have hread : tokens "(1.-)" = .ok (before ++ number :: after) := by cbv
  have hpair : pairFrom [] (before ++ number :: after).length 0 ((before ++ number :: after).map Token.slot) =
      .ok (.ok table) := by rfl
  exact ⟨hread, blank_behind_token hread hpair (w := '\u3000') (by decide)⟩

end SpecForest.Source

import SpecForest.Proofs.Source.Grouping
import SpecForest.Proofs.Source.Listing

/-!
# Pairing brackets

The table of the tokens of some trees, with every bracket knowing its partner. Pairing the brackets of a list
of tokens gives the table of the trees that grouping gives, or the same fault.
-/

namespace SpecForest.Source

mutual

/-- The part of the table for a tree that begins at an index. -/
def TokenTree.slots (i : Nat) : TokenTree → List Slot
  | .token t => [t.slot]
  | .group opening closing _ inner =>
    opening.slot.pairedWith (i + 1 + (TokenTree.allTokens inner).length) ::
      (slotsAll (i + 1) inner ++ [closing.slot.pairedWith i])

/-- The part of the table for trees that begin at an index. -/
def slotsAll (i : Nat) : List TokenTree → List Slot
  | [] => []
  | t :: rest => t.slots i ++ slotsAll (i + t.tokens.length) rest

end

mutual

@[simp] theorem TokenTree.length_slots (i : Nat) (t : TokenTree) : (t.slots i).length = t.tokens.length := by
  cases t with
  | token t => rfl
  | group opening closing d inner =>
    simp [TokenTree.slots, TokenTree.tokens, length_slotsAll (i + 1) inner]

@[simp] theorem length_slotsAll (i : Nat) (ts : List TokenTree) :
    (slotsAll i ts).length = (TokenTree.allTokens ts).length := by
  cases ts with
  | nil => rfl
  | cons t rest =>
    simp [slotsAll, TokenTree.allTokens, t.length_slots i, length_slotsAll (i + t.tokens.length) rest]

end

theorem slotsAll_append (i : Nat) (a b : List TokenTree) :
    slotsAll i (a ++ b) = slotsAll i a ++ slotsAll (i + (TokenTree.allTokens a).length) b := by
  induction a generalizing i with
  | nil => simp [slotsAll, TokenTree.allTokens]
  | cons t a ih => simp [slotsAll, TokenTree.allTokens, ih, Nat.add_assoc]

/-! ## Brackets that are open -/

/-- The table of what has been read, with some brackets open. -/
def frameSlots (current : List TokenTree) : List Frame → List Slot
  | [] => slotsAll 0 current.reverse
  | f :: outer =>
    frameSlots f.before outer ++
      f.opening.slot :: slotsAll ((frameTokens f.before outer).length + 1) current.reverse

/-- The indices of the brackets that are open. -/
def openIndices : List Frame → List (Nat × Delimiter)
  | [] => []
  | f :: outer => ((frameTokens f.before outer).length, f.delimiter) :: openIndices outer

theorem frameTokens_push (t : TokenTree) (current : List TokenTree) (frames : List Frame) :
    frameTokens (t :: current) frames = frameTokens current frames ++ t.tokens := by
  cases frames <;> simp [frameTokens, TokenTree.allTokens]

theorem frameSlots_push (t : TokenTree) (current : List TokenTree) (frames : List Frame) :
    frameSlots (t :: current) frames =
      frameSlots current frames ++ t.slots (frameTokens current frames).length := by
  cases frames with
  | nil => simp [frameSlots, frameTokens, slotsAll_append, slotsAll]
  | cons f outer =>
    simp [frameSlots, frameTokens, slotsAll_append, slotsAll, Nat.add_assoc, Nat.add_comm 1]

@[simp] theorem length_frameSlots (current : List TokenTree) (frames : List Frame) :
    (frameSlots current frames).length = (frameTokens current frames).length := by
  induction frames generalizing current with
  | nil => simp [frameSlots, frameTokens]
  | cons f outer ih => simp [frameSlots, frameTokens, ih]

/-! ## Pairing -/

theorem elementAt_append {α : Type} (a b : List α) (x : α) {i : Nat} (h : i = a.length) :
    elementAt (a ++ x :: b) i = .ok x := by
  subst h
  simp [elementAt]

theorem setPartner_append (a b : List Slot) (s : Slot) {i : Nat} (h : i = a.length) (j : Nat) :
    setPartner (a ++ s :: b) i j = .ok (a ++ s.pairedWith j :: b) := by
  subst h
  have hset : (a ++ s :: b).set a.length (s.pairedWith j) = a ++ s.pairedWith j :: b := by simp
  rw [setPartner, elementAt_append a b s rfl]
  exact congrArg Except.ok hset

theorem Checked.ok_bind {α β : Type} (a : α) (f : α → Checked β) : (Except.ok a >>= f) = f a := rfl

theorem pairFrom_plain {opened : List (Nat × Delimiter)} {count i : Nat} {table : List Slot} {s : Slot}
    (hs : elementAt table i = .ok s) (hplain : s.kind.isBracket = false) :
    pairFrom opened (count + 1) i table = pairFrom opened count (i + 1) table := by
  rw [pairFrom, hs, Checked.ok_bind]
  cases hkind : s.kind with
  | opening d => simp [hkind, TokenKind.isBracket] at hplain
  | closing d => simp [hkind, TokenKind.isBracket] at hplain
  | _ => rfl

theorem pairFrom_opening {opened : List (Nat × Delimiter)} {count i : Nat} {table : List Slot} {s : Slot}
    {d : Delimiter} (hs : elementAt table i = .ok s) (hkind : s.kind = .opening d) :
    pairFrom opened (count + 1) i table = pairFrom ((i, d) :: opened) count (i + 1) table := by
  rw [pairFrom, hs, Checked.ok_bind, hkind]

theorem pairFrom_closing {outer : List (Nat × Delimiter)} {count i j : Nat} {table closed paired : List Slot}
    {s : Slot} {d : Delimiter} (hs : elementAt table i = .ok s) (hkind : s.kind = .closing d)
    (hclosed : setPartner table i j = .ok closed) (hpaired : setPartner closed j i = .ok paired) :
    pairFrom ((j, d) :: outer) (count + 1) i table = pairFrom outer count (i + 1) paired := by
  rw [pairFrom, hs, Checked.ok_bind, hkind]
  simp only [if_true]
  rw [hclosed, Checked.ok_bind, hpaired, Checked.ok_bind]

theorem pairFrom_mismatched {outer : List (Nat × Delimiter)} {count i j : Nat} {table : List Slot}
    {s o : Slot} {d e : Delimiter} (hs : elementAt table i = .ok s) (hkind : s.kind = .closing d)
    (ho : elementAt table j = .ok o) (hne : e ≠ d) :
    pairFrom ((j, e) :: outer) (count + 1) i table = .ok (.error ⟨s.start, .mismatched e o.start⟩) := by
  rw [pairFrom, hs, Checked.ok_bind, hkind]
  simp only [hne, if_false]
  rw [ho]
  rfl

/-- The table of a group that has just been closed. -/
theorem frameSlots_group (f : Frame) (outer : List Frame) (current : List TokenTree) (t : Token) :
    frameSlots (.group f.opening t f.delimiter current.reverse :: f.before) outer =
      frameSlots f.before outer ++
        f.opening.slot.pairedWith (frameTokens current (f :: outer)).length ::
          (slotsAll ((frameTokens f.before outer).length + 1) current.reverse ++
            [t.slot.pairedWith (frameTokens f.before outer).length]) := by
  have hlength : (frameTokens current (f :: outer)).length =
      (frameTokens f.before outer).length + 1 + (TokenTree.allTokens current.reverse).length := by
    simp [frameTokens, Nat.add_assoc, Nat.add_comm 1]
  rw [frameSlots_push, TokenTree.slots, hlength]

/-- Pairing from some state on gives the table of what grouping gives from there. -/
theorem pairFrom_eq (rest : List Token) (frames : List Frame) (current : List TokenTree) :
    pairFrom (openIndices frames) rest.length (frameTokens current frames).length
        (frameSlots current frames ++ rest.map Token.slot) =
      .ok ((groupFrom frames current rest).map (slotsAll 0)) := by
  -- both go through the tokens in step: the frames of the one give the table and the indices of the other
  induction rest generalizing frames current with
  | nil =>
    cases frames with
    | nil => simp [pairFrom, openIndices, groupFrom, frameSlots, Except.map]
    | cons f outer =>
      have hopening : elementAt (frameSlots current (f :: outer) ++ [].map Token.slot)
          (frameTokens f.before outer).length = .ok f.opening.slot := by
        rw [frameSlots, List.append_assoc, List.cons_append]
        exact elementAt_append _ _ _ (length_frameSlots f.before outer).symm
      rw [List.length_nil, openIndices, pairFrom, hopening]
      rfl
  | cons t rest ih =>
    have ht : elementAt (frameSlots current frames ++ (t :: rest).map Token.slot)
        (frameTokens current frames).length = .ok t.slot :=
      elementAt_append _ _ _ (length_frameSlots current frames).symm
    rw [List.length_cons]
    by_cases hplain : t.kind.isBracket = false
    · have hnext := ih frames (.token t :: current)
      rw [frameSlots_push, frameTokens_push, List.append_assoc] at hnext
      rw [groupFrom_plain hplain, pairFrom_plain ht hplain, ← hnext]
      simp [TokenTree.slots, TokenTree.tokens]
    · cases hkind : t.kind with
      | opening d =>
        have hnext := ih (⟨t, d, current⟩ :: frames) []
        rw [groupFrom_opening hkind, pairFrom_opening ht hkind, ← hnext]
        simp [openIndices, frameTokens, frameSlots, slotsAll, TokenTree.allTokens]
      | closing d =>
        cases frames with
        | nil =>
          rw [openIndices, pairFrom, ht, Checked.ok_bind, groupFrom]
          simp [Token.slot, hkind, Except.map, pure, Except.pure]
        | cons f outer =>
          have hopening : elementAt (frameSlots current (f :: outer) ++ (t :: rest).map Token.slot)
              (frameTokens f.before outer).length = .ok f.opening.slot := by
            rw [frameSlots, List.append_assoc, List.cons_append]
            exact elementAt_append _ _ _ (length_frameSlots f.before outer).symm
          by_cases hd : f.delimiter = d
          · subst hd
            -- two slots change: the one read now, and the opening bracket further back
            have hnext := ih outer (.group f.opening t f.delimiter current.reverse :: f.before)
            have hclosed := setPartner_append (frameSlots current (f :: outer)) (rest.map Token.slot) t.slot
              (length_frameSlots current (f :: outer)).symm (frameTokens f.before outer).length
            have hpaired := setPartner_append (frameSlots f.before outer)
              (slotsAll ((frameTokens f.before outer).length + 1) current.reverse ++
                t.slot.pairedWith (frameTokens f.before outer).length :: rest.map Token.slot)
              f.opening.slot (length_frameSlots f.before outer).symm (frameTokens current (f :: outer)).length
            rw [groupFrom_closing hkind, openIndices,
              pairFrom_closing ht hkind hclosed (by simpa [frameSlots] using hpaired), ← hnext,
              frameSlots_group, frameTokens_push]
            simp [frameTokens, TokenTree.tokens, Nat.add_assoc]
          · rw [openIndices, pairFrom_mismatched ht hkind hopening hd, groupFrom]
            simp [hkind, hd, Except.map, Token.slot]
      | _ => simp [hkind, TokenKind.isBracket] at hplain

/-- Pairing the brackets of a list of tokens gives the table of its trees, and never gets stuck. -/
theorem pairFrom_group (ts : List Token) :
    pairFrom [] ts.length 0 (ts.map Token.slot) = .ok ((group ts).map (slotsAll 0)) :=
  pairFrom_eq ts [] []

end SpecForest.Source

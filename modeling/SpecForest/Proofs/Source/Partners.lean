import SpecForest.Proofs.Source.Balance

/-!
# Partners of brackets

In the table of some trees, the partner of a bracket is the other bracket of its group. `pairsAll` lists the
groups by the indices of their brackets; that pairs are nested or disjoint is read off this list, and the
table knows as partners exactly what the list says.

The main statement puts this together with the account of balanced words: pairing succeeds exactly on
balanced words, what it then writes into the table is a matching, and otherwise it reports the fault.
-/

namespace SpecForest.Source

mutual

/-- The indices of the brackets of every group in a tree that begins at an index. -/
def TokenTree.pairs (i : Nat) : TokenTree → List (Nat × Nat)
  | .token _ => []
  | .group _ _ _ inner => (i, i + 1 + (TokenTree.allTokens inner).length) :: pairsAll (i + 1) inner

/-- The indices of the brackets of every group in trees that begin at an index. -/
def pairsAll (i : Nat) : List TokenTree → List (Nat × Nat)
  | [] => []
  | t :: rest => t.pairs i ++ pairsAll (i + t.tokens.length) rest

end

theorem TokenTree.mem_pairs_group {i a b : Nat} {opening closing : Token} {d : Delimiter}
    {inner : List TokenTree} :
    (a, b) ∈ (TokenTree.group opening closing d inner).pairs i ↔
      (a = i ∧ b = i + 1 + (TokenTree.allTokens inner).length) ∨ (a, b) ∈ pairsAll (i + 1) inner := by
  simp [TokenTree.pairs]

theorem mem_pairsAll_cons {i a b : Nat} {t : TokenTree} {rest : List TokenTree} :
    (a, b) ∈ pairsAll i (t :: rest) ↔
      (a, b) ∈ t.pairs i ∨ (a, b) ∈ pairsAll (i + t.tokens.length) rest := by
  simp [pairsAll]

theorem TokenTree.length_tokens_group (opening closing : Token) (d : Delimiter) (inner : List TokenTree) :
    (TokenTree.group opening closing d inner).tokens.length = (TokenTree.allTokens inner).length + 2 := by
  simp [TokenTree.tokens]

/-! ## Where pairs lie -/

mutual

/-- The brackets of a group lie within the tree, the opening one first. -/
theorem TokenTree.bounds_of_mem_pairs {i a b : Nat} {t : TokenTree} (h : (a, b) ∈ t.pairs i) :
    i ≤ a ∧ a < b ∧ b < i + t.tokens.length := by
  cases t with
  | token t => cases h
  | group opening closing d inner =>
    rw [TokenTree.length_tokens_group]
    rcases TokenTree.mem_pairs_group.mp h with ⟨rfl, rfl⟩ | hinner
    · omega
    · have := bounds_of_mem_pairsAll hinner
      omega

theorem bounds_of_mem_pairsAll {i a b : Nat} {ts : List TokenTree} (h : (a, b) ∈ pairsAll i ts) :
    i ≤ a ∧ a < b ∧ b < i + (TokenTree.allTokens ts).length := by
  cases ts with
  | nil => cases h
  | cons t rest =>
    rw [TokenTree.allTokens, List.length_append]
    rcases mem_pairsAll_cons.mp h with hfirst | hrest
    · have := TokenTree.bounds_of_mem_pairs hfirst
      omega
    · have := bounds_of_mem_pairsAll hrest
      omega

end

mutual

/-- Of two groups, the one that opens later lies behind the other or inside it. -/
theorem TokenTree.pairs_nested_or_disjoint {i a b c d : Nat} {t : TokenTree} (h : (a, b) ∈ t.pairs i)
    (h' : (c, d) ∈ t.pairs i) (hlt : a < c) : b < c ∨ d < b := by
  cases t with
  | token t => cases h
  | group opening closing e inner =>
    rcases TokenTree.mem_pairs_group.mp h with ⟨rfl, rfl⟩ | hinner
    · rcases TokenTree.mem_pairs_group.mp h' with ⟨rfl, rfl⟩ | hinner'
      · omega
      · have := bounds_of_mem_pairsAll hinner'
        omega
    · rcases TokenTree.mem_pairs_group.mp h' with ⟨rfl, rfl⟩ | hinner'
      · have := bounds_of_mem_pairsAll hinner
        omega
      · exact pairsAll_nested_or_disjoint hinner hinner' hlt

theorem pairsAll_nested_or_disjoint {i a b c d : Nat} {ts : List TokenTree} (h : (a, b) ∈ pairsAll i ts)
    (h' : (c, d) ∈ pairsAll i ts) (hlt : a < c) : b < c ∨ d < b := by
  cases ts with
  | nil => cases h
  | cons t rest =>
    rcases mem_pairsAll_cons.mp h with hfirst | hrest
    · rcases mem_pairsAll_cons.mp h' with hfirst' | hrest'
      · exact TokenTree.pairs_nested_or_disjoint hfirst hfirst' hlt
      · have := TokenTree.bounds_of_mem_pairs hfirst
        have := bounds_of_mem_pairsAll hrest'
        omega
    · rcases mem_pairsAll_cons.mp h' with hfirst' | hrest'
      · have := bounds_of_mem_pairsAll hrest
        have := TokenTree.bounds_of_mem_pairs hfirst'
        omega
      · exact pairsAll_nested_or_disjoint hrest hrest' hlt

end

/-! ## Slots by index -/

/-- The slot at an index of a table, of which a part is given that begins at an index. -/
def SlotAt (i : Nat) (part : List Slot) (k : Nat) (s : Slot) : Prop :=
  i ≤ k ∧ part[k - i]? = some s

theorem slotAt_zero {table : List Slot} {k : Nat} {s : Slot} : SlotAt 0 table k s ↔ table[k]? = some s := by
  simp [SlotAt]

theorem slotAt_append {i k : Nat} {a b : List Slot} {s : Slot} :
    SlotAt i (a ++ b) k s ↔ SlotAt i a k s ∨ SlotAt (i + a.length) b k s := by
  unfold SlotAt
  by_cases hk : k - i < a.length
  · rw [List.getElem?_append_left hk]
    constructor
    · intro h
      exact .inl h
    · rintro (h | h)
      · exact h
      · omega
  · rw [List.getElem?_append_right (by omega), List.getElem?_eq_none (l := a) (by omega), Nat.sub_sub]
    constructor
    · rintro ⟨hle, hget⟩
      exact .inr ⟨by omega, hget⟩
    · rintro (⟨_, h⟩ | ⟨hle, hget⟩)
      · cases h
      · exact ⟨by omega, hget⟩

theorem slotAt_singleton {i k : Nat} {s t : Slot} : SlotAt i [t] k s ↔ k = i ∧ s = t := by
  unfold SlotAt
  constructor
  · rintro ⟨hle, hget⟩
    obtain ⟨hlt, rfl⟩ := List.getElem?_eq_some_iff.mp hget
    rw [List.length_singleton] at hlt
    exact ⟨by omega, by simp⟩
  · rintro ⟨rfl, rfl⟩
    simp

theorem slotAt_cons {i k : Nat} {s t : Slot} {rest : List Slot} :
    SlotAt i (t :: rest) k s ↔ (k = i ∧ s = t) ∨ SlotAt (i + 1) rest k s := by
  rw [← List.singleton_append, slotAt_append, slotAt_singleton, List.length_singleton]

theorem slotAt_group {i k : Nat} {s : Slot} {opening closing : Token} {d : Delimiter}
    {inner : List TokenTree} :
    SlotAt i ((TokenTree.group opening closing d inner).slots i) k s ↔
      (k = i ∧ s = opening.slot.pairedWith (i + 1 + (TokenTree.allTokens inner).length)) ∨
        SlotAt (i + 1) (slotsAll (i + 1) inner) k s ∨
        (k = i + 1 + (TokenTree.allTokens inner).length ∧ s = closing.slot.pairedWith i) := by
  rw [TokenTree.slots, slotAt_cons, slotAt_append, slotAt_singleton, length_slotsAll]

theorem slotAt_slotsAll_cons {i k : Nat} {s : Slot} {t : TokenTree} {rest : List TokenTree} :
    SlotAt i (slotsAll i (t :: rest)) k s ↔
      SlotAt i (t.slots i) k s ∨
        SlotAt (i + t.tokens.length) (slotsAll (i + t.tokens.length) rest) k s := by
  rw [slotsAll, slotAt_append, TokenTree.length_slots]

/-! ## What the table knows -/

mutual

/-- A partner is the other bracket of a group. -/
theorem TokenTree.mem_pairs_of_partner {i k j : Nat} {s : Slot} {t : TokenTree}
    (h : SlotAt i (t.slots i) k s) (hpartner : s.partner = some j) :
    (k, j) ∈ t.pairs i ∨ (j, k) ∈ t.pairs i := by
  cases t with
  | token t =>
    obtain ⟨rfl, rfl⟩ := slotAt_singleton.mp h
    cases hpartner
  | group opening closing d inner =>
    simp only [TokenTree.mem_pairs_group]
    rcases slotAt_group.mp h with ⟨rfl, rfl⟩ | hinner | ⟨rfl, rfl⟩
    · cases hpartner
      exact .inl (.inl ⟨rfl, rfl⟩)
    · rcases mem_pairsAll_of_partner hinner hpartner with hpair | hpair
      · exact .inl (.inr hpair)
      · exact .inr (.inr hpair)
    · cases hpartner
      exact .inr (.inl ⟨rfl, rfl⟩)

theorem mem_pairsAll_of_partner {i k j : Nat} {s : Slot} {ts : List TokenTree}
    (h : SlotAt i (slotsAll i ts) k s) (hpartner : s.partner = some j) :
    (k, j) ∈ pairsAll i ts ∨ (j, k) ∈ pairsAll i ts := by
  cases ts with
  | nil => cases h.2
  | cons t rest =>
    simp only [mem_pairsAll_cons]
    rcases slotAt_slotsAll_cons.mp h with hfirst | hrest
    · rcases TokenTree.mem_pairs_of_partner hfirst hpartner with hpair | hpair
      · exact .inl (.inl hpair)
      · exact .inr (.inl hpair)
    · rcases mem_pairsAll_of_partner hrest hpartner with hpair | hpair
      · exact .inl (.inr hpair)
      · exact .inr (.inr hpair)

end

/-- Two slots hold the brackets of a group, and each has the index of the other. -/
def Joined (i : Nat) (part : List Slot) (a b : Nat) : Prop :=
  ∃ d s o, (SlotAt i part a s ∧ s.kind = .opening d ∧ s.partner = some b) ∧
    (SlotAt i part b o ∧ o.kind = .closing d ∧ o.partner = some a)

mutual

/-- The brackets of a group are partners, and of one kind. -/
theorem TokenTree.joined_of_mem_pairs {i a b : Nat} {t : TokenTree} (hfit : t.Fits)
    (h : (a, b) ∈ t.pairs i) : Joined i (t.slots i) a b := by
  cases t with
  | token t => cases h
  | group opening closing d inner =>
    obtain ⟨hopen, hclose, hinner⟩ := hfit
    simp only [Joined, slotAt_group]
    rcases TokenTree.mem_pairs_group.mp h with ⟨rfl, rfl⟩ | hpair
    · exact ⟨d, _, _, ⟨.inl ⟨rfl, rfl⟩, hopen, rfl⟩, .inr (.inr ⟨rfl, rfl⟩), hclose, rfl⟩
    · obtain ⟨e, s, o, ⟨hs, hsopen⟩, ho, hoclose⟩ := joined_of_mem_pairsAll hinner hpair
      exact ⟨e, s, o, ⟨.inr (.inl hs), hsopen⟩, .inr (.inl ho), hoclose⟩

theorem joined_of_mem_pairsAll {i a b : Nat} {ts : List TokenTree} (hfit : AllFit ts)
    (h : (a, b) ∈ pairsAll i ts) : Joined i (slotsAll i ts) a b := by
  cases ts with
  | nil => cases h
  | cons t rest =>
    obtain ⟨ht, hrest⟩ := hfit
    simp only [Joined, slotAt_slotsAll_cons]
    rcases mem_pairsAll_cons.mp h with hpair | hpair
    · obtain ⟨e, s, o, ⟨hs, hsopen⟩, ho, hoclose⟩ := TokenTree.joined_of_mem_pairs ht hpair
      exact ⟨e, s, o, ⟨.inl hs, hsopen⟩, .inl ho, hoclose⟩
    · obtain ⟨e, s, o, ⟨hs, hsopen⟩, ho, hoclose⟩ := joined_of_mem_pairsAll hrest hpair
      exact ⟨e, s, o, ⟨.inr hs, hsopen⟩, .inr ho, hoclose⟩

end

mutual

/-- Brackets have a partner, and nothing else has one. -/
theorem TokenTree.isSome_partner {i k : Nat} {s : Slot} {t : TokenTree} (hfit : t.Fits)
    (h : SlotAt i (t.slots i) k s) : s.partner.isSome = s.kind.isBracket := by
  cases t with
  | token t =>
    obtain ⟨rfl, rfl⟩ := slotAt_singleton.mp h
    have hplain : t.kind.isBracket = false := hfit
    exact hplain.symm
  | group opening closing d inner =>
    obtain ⟨hopen, hclose, hinner⟩ := hfit
    rcases slotAt_group.mp h with ⟨rfl, rfl⟩ | hslot | ⟨rfl, rfl⟩
    · simp [Slot.pairedWith, Token.slot, hopen, TokenKind.isBracket]
    · exact isSome_partner_of_slotsAll hinner hslot
    · simp [Slot.pairedWith, Token.slot, hclose, TokenKind.isBracket]

theorem isSome_partner_of_slotsAll {i k : Nat} {s : Slot} {ts : List TokenTree} (hfit : AllFit ts)
    (h : SlotAt i (slotsAll i ts) k s) : s.partner.isSome = s.kind.isBracket := by
  cases ts with
  | nil => cases h.2
  | cons t rest =>
    rcases slotAt_slotsAll_cons.mp h with hfirst | hrest
    · exact TokenTree.isSome_partner hfit.1 hfirst
    · exact isSome_partner_of_slotsAll hfit.2 hrest

end

/-- A slot without its partner. -/
def Slot.unpaired (s : Slot) : Slot := { s with partner := none }

mutual

theorem TokenTree.map_unpaired_slots (i : Nat) (t : TokenTree) :
    (t.slots i).map Slot.unpaired = t.tokens.map Token.slot := by
  cases t with
  | token t => rfl
  | group opening closing d inner =>
    have hinner := map_unpaired_slotsAll (i + 1) inner
    simp [TokenTree.slots, TokenTree.tokens, hinner, Slot.unpaired, Slot.pairedWith, Token.slot]

theorem map_unpaired_slotsAll (i : Nat) (ts : List TokenTree) :
    (slotsAll i ts).map Slot.unpaired = (TokenTree.allTokens ts).map Token.slot := by
  cases ts with
  | nil => rfl
  | cons t rest =>
    have hfirst := t.map_unpaired_slots i
    have hrest := map_unpaired_slotsAll (i + t.tokens.length) rest
    rw [slotsAll, TokenTree.allTokens, List.map_append, List.map_append, hfirst, hrest]

end

/-! ## Pairing -/

/-- The brackets of a table are matched. -/
structure Matched (table : List Slot) : Prop where
  /-- Brackets have a partner, and nothing else has one. -/
  partner_iff : ∀ (i : Nat) (s : Slot), table[i]? = some s → (s.partner.isSome ↔ s.kind.isBracket)
  /-- The partner of the partner is the bracket itself; of the two, the one that comes first opens what the
  other closes. -/
  joined : ∀ (i j : Nat) (s : Slot), table[i]? = some s → s.partner = some j →
    ∃ o d, table[j]? = some o ∧ o.partner = some i ∧
      ((i < j ∧ s.kind = .opening d ∧ o.kind = .closing d) ∨
        (j < i ∧ s.kind = .closing d ∧ o.kind = .opening d))
  /-- Of two pairs, the one that opens later lies behind the other or inside it. -/
  nested : ∀ (a b c d : Nat) (s t : Slot), table[a]? = some s → s.partner = some b → a < b →
    table[c]? = some t → t.partner = some d → c < d → a < c → b < c ∨ d < b

/-- The table of fitting trees is matched. -/
theorem matched_slotsAll {ts : List TokenTree} (hfit : AllFit ts) : Matched (slotsAll 0 ts) := by
  have hpair : ∀ (a b : Nat) (s : Slot), (slotsAll 0 ts)[a]? = some s → s.partner = some b → a < b →
      (a, b) ∈ pairsAll 0 ts := by
    intro a b s hs hpartner hlt
    rcases mem_pairsAll_of_partner (slotAt_zero.mpr hs) hpartner with h | h
    · exact h
    · have := bounds_of_mem_pairsAll h
      omega
  refine ⟨?_, ?_, ?_⟩
  · intro i s hs
    rw [isSome_partner_of_slotsAll hfit (slotAt_zero.mpr hs)]
  · intro i j s hs hpartner
    rcases mem_pairsAll_of_partner (slotAt_zero.mpr hs) hpartner with h | h
    · have hbounds := bounds_of_mem_pairsAll h
      obtain ⟨d, s', o, ⟨hs', hopen, -⟩, ho, hclose, hback⟩ := joined_of_mem_pairsAll hfit h
      rw [slotAt_zero] at hs' ho
      obtain rfl : s = s' := by
        rw [hs] at hs'
        exact Option.some.inj hs'
      exact ⟨o, d, ho, hback, .inl ⟨hbounds.2.1, hopen, hclose⟩⟩
    · have hbounds := bounds_of_mem_pairsAll h
      obtain ⟨d, o, s', ⟨ho, hopen, hback⟩, hs', hclose, -⟩ := joined_of_mem_pairsAll hfit h
      rw [slotAt_zero] at hs' ho
      obtain rfl : s = s' := by
        rw [hs] at hs'
        exact Option.some.inj hs'
      exact ⟨o, d, ho, hback, .inr ⟨hbounds.2.1, hclose, hopen⟩⟩
  · intro a b c d s t hs hb hab ht hd hcd hac
    exact pairsAll_nested_or_disjoint (hpair a b s hs hb hab) (hpair c d t ht hd hcd) hac

/-- Pairing gives a table exactly if grouping gives trees, and the table is theirs. -/
theorem pairFrom_eq_ok_iff (ts : List Token) (table : List Slot) :
    pairFrom [] ts.length 0 (ts.map Token.slot) = .ok (.ok table) ↔
      ∃ trees, group ts = .ok trees ∧ table = slotsAll 0 trees := by
  rw [pairFrom_group]
  cases group ts with
  | error e => simp [Except.map]
  | ok trees => simp [Except.map, eq_comm]

/-- Pairing and grouping fail with the same fault. -/
theorem pairFrom_eq_error_iff (ts : List Token) (error : LexError) :
    pairFrom [] ts.length 0 (ts.map Token.slot) = .ok (.error error) ↔ group ts = .error error := by
  rw [pairFrom_group]
  cases group ts with
  | error e => simp [Except.map]
  | ok trees => simp [Except.map]

/-- Pairing the brackets of tokens that have no partners yet succeeds exactly if the brackets are balanced.
Then the table is that of the tokens with their brackets matched. Otherwise the first closing bracket that
leaves no way to go on is reported, or else the last opening bracket that is never closed. Grouping succeeds
and fails alike. -/
theorem pairing_accepts_balanced (ts : List Token) :
    ((∃ table, pairFrom [] ts.length 0 (ts.map Token.slot) = .ok (.ok table)) ↔ Balanced (brackets ts)) ∧
      (∀ table, pairFrom [] ts.length 0 (ts.map Token.slot) = .ok (.ok table) →
        table.map Slot.unpaired = ts.map Token.slot ∧ Matched table) ∧
      (∀ error, pairFrom [] ts.length 0 (ts.map Token.slot) = .ok (.error error) ↔ Misfit ts error) ∧
      ((∃ trees, group ts = .ok trees) ↔ Balanced (brackets ts)) ∧
      (∀ error, group ts = .error error ↔ Misfit ts error) := by
  have hgroup := exists_group_iff_balanced ts
  have hfault := group_eq_error_iff ts
  refine ⟨?_, ?_, ?_, hgroup, hfault⟩
  · rw [← hgroup]
    constructor
    · rintro ⟨table, htable⟩
      obtain ⟨trees, htrees, -⟩ := (pairFrom_eq_ok_iff ts table).mp htable
      exact ⟨trees, htrees⟩
    · rintro ⟨trees, htrees⟩
      exact ⟨slotsAll 0 trees, (pairFrom_eq_ok_iff ts _).mpr ⟨trees, htrees, rfl⟩⟩
  · intro table htable
    obtain ⟨trees, htrees, rfl⟩ := (pairFrom_eq_ok_iff ts table).mp htable
    obtain ⟨hfit, rfl⟩ := (group_eq_ok_iff ts trees).mp htrees
    exact ⟨map_unpaired_slotsAll 0 trees, matched_slotsAll hfit⟩
  · intro error
    rw [pairFrom_eq_error_iff, hfault]

/-- A pair of braces in a pair of parentheses. -/
theorem pairing_accepts_nested_brackets :
    let ts : List Token := [
      ⟨"", "(", .opening .paren, ⟨0, 1, 1⟩⟩, ⟨"", "\x7b", .opening .brace, ⟨1, 1, 2⟩⟩,
      ⟨"", "x", .name, ⟨2, 1, 3⟩⟩, ⟨"", "\x7d", .closing .brace, ⟨3, 1, 4⟩⟩,
      ⟨"", ")", .closing .paren, ⟨4, 1, 5⟩⟩]
    let table : List Slot := [
      ⟨.opening .paren, ⟨0, 1, 1⟩, 1, some 4⟩, ⟨.opening .brace, ⟨1, 1, 2⟩, 2, some 3⟩,
      ⟨.name, ⟨2, 1, 3⟩, 3, none⟩, ⟨.closing .brace, ⟨3, 1, 4⟩, 4, some 1⟩,
      ⟨.closing .paren, ⟨4, 1, 5⟩, 5, some 0⟩]
    pairFrom [] ts.length 0 (ts.map Token.slot) = .ok (.ok table) ∧ Matched table ∧
      Balanced (brackets ts) := by
  intro ts table
  have hpair : pairFrom [] ts.length 0 (ts.map Token.slot) = .ok (.ok table) := by rfl
  have hall := pairing_accepts_balanced ts
  exact ⟨hpair, (hall.2.1 table hpair).2, hall.1.mp ⟨table, hpair⟩⟩

end SpecForest.Source

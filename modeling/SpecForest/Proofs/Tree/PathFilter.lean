import SpecForest.Tree.Resolved

/-!
# Filtering by a part of a path

A filter by path looks for the pattern in the path, both in lower case. Lower case is taken character by character,
except for the capital sigma, of which the form depends on the word around it. So a part of a path is found in it
unless a cut through a word changes the form of a sigma.
-/

namespace SpecForest.Text

/-! ## Lower case of a part -/

/-- Whether a sigma ends a word, given the characters before it, the last one first, and those behind it. -/
def endsWord (before rest : List Char) : Bool :=
  startsCased before && !startsCased rest

/-- The lower-case form of a character between others. -/
def formIn (before : List Char) (c : Char) (rest : List Char) : List Char :=
  if c = 'Σ' then [if endsWord before rest then 'ς' else 'σ'] else lowerChar c

theorem lowerAfter_cons (before : List Char) (c : Char) (rest : List Char) :
    lowerAfter before (c :: rest) = formIn before c rest ++ lowerAfter (c :: before) rest := by
  simp [lowerAfter, formIn, endsWord]

/-- Lower case of a part of a text, given what stands before it, the last character first, and behind it. -/
def lowerPart (before : List Char) : (part after : List Char) → List Char
  | [], _ => []
  | c :: rest, after => formIn before c (rest ++ after) ++ lowerPart (c :: before) rest after

theorem lowerAfter_append (before part after : List Char) :
    lowerAfter before (part ++ after) =
      lowerPart before part after ++ lowerAfter (part.reverse ++ before) after := by
  induction part generalizing before with
  | nil => rfl
  | cons c rest ih => simp [lowerAfter_cons, lowerPart, ih]

theorem lowerPart_nil (before part : List Char) : lowerPart before part [] = lowerAfter before part := by
  have happend := lowerAfter_append before part []
  rw [List.append_nil] at happend
  rw [happend, lowerAfter, List.append_nil]

/-- Every sigma of a part ends a word in the one surroundings if it does in the other. -/
def SameSigmas (part before after before' after' : List Char) : Prop :=
  ∀ u v, part = u ++ 'Σ' :: v →
    endsWord (u.reverse ++ before) (v ++ after) = endsWord (u.reverse ++ before') (v ++ after')

theorem sameSigmas_cons {c : Char} {rest before after before' after' : List Char} :
    SameSigmas (c :: rest) before after before' after' ↔
      (c = 'Σ' → endsWord before (rest ++ after) = endsWord before' (rest ++ after')) ∧
        SameSigmas rest (c :: before) after (c :: before') after' := by
  constructor
  · intro h
    refine ⟨?_, ?_⟩
    · rintro rfl
      exact h [] rest rfl
    · rintro u v rfl
      simpa using h (c :: u) v rfl
  · rintro ⟨hhead, hrest⟩ u v huv
    cases u with
    | nil =>
      obtain ⟨rfl, rfl⟩ := List.cons.inj huv
      exact hhead rfl
    | cons d u =>
      obtain ⟨rfl, rfl⟩ := List.cons.inj huv
      simpa using hrest u v rfl

theorem length_formIn (before before' : List Char) (c : Char) (rest rest' : List Char) :
    (formIn before c rest).length = (formIn before' c rest').length := by
  unfold formIn
  split <;> rfl

theorem formIn_eq_iff {before before' : List Char} {c : Char} {rest rest' : List Char} :
    formIn before c rest = formIn before' c rest' ↔ (c = 'Σ' → endsWord before rest = endsWord before' rest') := by
  by_cases hc : c = 'Σ'
  · simp only [formIn, if_pos hc]
    cases endsWord before rest <;> cases endsWord before' rest' <;> simp [hc]
  · simp [formIn, hc]

theorem length_lowerPart (before before' part after after' : List Char) :
    (lowerPart before part after).length = (lowerPart before' part after').length := by
  induction part generalizing before before' with
  | nil => rfl
  | cons c rest ih =>
    rw [lowerPart, lowerPart, List.length_append, List.length_append, ih (c :: before) (c :: before'),
      length_formIn before before' c (rest ++ after) (rest ++ after')]

/-- The lower-case form of a part depends on its surroundings through its sigmas alone. -/
theorem lowerPart_eq_iff {before before' part after after' : List Char} :
    lowerPart before part after = lowerPart before' part after' ↔ SameSigmas part before after before' after' := by
  induction part generalizing before before' with
  | nil => simp [lowerPart, SameSigmas]
  | cons c rest ih =>
    rw [lowerPart, lowerPart, sameSigmas_cons, ← ih, ← formIn_eq_iff]
    constructor
    · intro h
      exact List.append_inj h (length_formIn _ _ _ _ _)
    · rintro ⟨hform, hrest⟩
      rw [hform, hrest]

theorem occursIn_iff (part whole : List Char) : occursIn part whole = true ↔ part <:+: whole := by
  induction whole with
  | nil => simp [occursIn]
  | cons c rest ih => simp [occursIn, ih, List.infix_cons_iff]

/-- Every sigma of a part ends a word in the part by itself if it does in the whole text. -/
def KeepsSigmas (front part back : List Char) : Prop :=
  ∀ u v, part = u ++ 'Σ' :: v → endsWord u.reverse v = endsWord (front ++ u).reverse (v ++ back)

theorem keepsSigmas_iff {front part back : List Char} :
    KeepsSigmas front part back ↔ lowerAfter [] part = lowerPart front.reverse part back := by
  rw [← lowerPart_nil, lowerPart_eq_iff]
  simp [KeepsSigmas, SameSigmas]

theorem lowerAfter_parts (front part back : List Char) :
    lowerAfter [] (front ++ (part ++ back)) = lowerPart [] front (part ++ back) ++
      (lowerPart front.reverse part back ++ lowerAfter (part.reverse ++ front.reverse) back) := by
  rw [lowerAfter_append, lowerAfter_append, List.append_nil]

/-- The lower-case form of a part begins, in that of the whole text, behind the form of what stands in front, exactly
if no sigma of the part is changed by the cuts. -/
theorem lowerAfter_prefix_iff (front part back : List Char) :
    lowerAfter [] part <+: (lowerAfter [] (front ++ (part ++ back))).drop (lowerAfter [] front).length ↔
      KeepsSigmas front part back := by
  have hfront : (lowerAfter [] front).length = (lowerPart [] front (part ++ back)).length := by
    rw [← lowerPart_nil]
    exact length_lowerPart ..
  have hpart : (lowerAfter [] part).length = (lowerPart front.reverse part back).length := by
    rw [← lowerPart_nil]
    exact length_lowerPart ..
  rw [lowerAfter_parts, hfront, List.drop_left, keepsSigmas_iff]
  constructor
  · rintro ⟨rest, hrest⟩
    exact (List.append_inj hrest hpart).1
  · intro h
    rw [h]
    exact List.prefix_append _ _

theorem lowerAfter_infix {front part back : List Char} (h : KeepsSigmas front part back) :
    lowerAfter [] part <:+: lowerAfter [] (front ++ (part ++ back)) :=
  ((lowerAfter_prefix_iff front part back).mpr h).isInfix.trans (List.drop_suffix _ _).isInfix

end SpecForest.Text

namespace SpecForest.Resolved

open Text

/-- Where a pattern stands in the path of a leaf, its lower-case form stands in that of the path exactly if every
capital sigma of the pattern ends a word in the pattern just if it does in the path. In that case the filter finds the leaf,
and so it does for every pattern without capital sigmas. -/
theorem filterByPath_finds_parts {r : Resolved} {l : Leaf} (hl : l ∈ r.leaves) {front pattern back : String}
    (hpath : l.path = front ++ pattern ++ back) :
    ((lower pattern).toList <+: (lower l.path).toList.drop (lower front).length ↔
      KeepsSigmas front.toList pattern.toList back.toList) ∧
    (KeepsSigmas front.toList pattern.toList back.toList → l ∈ r.filterByPath pattern) ∧
    ('Σ' ∉ pattern.toList → l ∈ r.filterByPath pattern) := by
  have hchars : l.path.toList = front.toList ++ (pattern.toList ++ back.toList) := by simp [hpath]
  have hkept : KeepsSigmas front.toList pattern.toList back.toList → l ∈ r.filterByPath pattern := by
    intro h
    have hinfix := lowerAfter_infix h
    rw [← hchars] at hinfix
    refine List.mem_filter.mpr ⟨hl, (occursIn_iff _ _).mpr ?_⟩
    simpa [lower] using hinfix
  refine ⟨?_, hkept, fun hno => hkept ?_⟩
  · rw [← lowerAfter_prefix_iff, ← hchars]
    simp [lower]
  · rintro u v huv
    exact absurd (huv ▸ List.mem_append_right u List.mem_cons_self) hno

/-- A pattern that ends within a word, behind a sigma that ends another word. -/
theorem filterByPath_finds_parts_two_words :
    ∃ r : Resolved, ∃ l ∈ r.filterByPath "ΑΣ > Β", l.path = "ΑΣ > ΒΣΓ" := by
  let leaf : Node := .leaf { label := "ΒΣΓ" } ⟨default, .noop⟩ none
  let r : Resolved := Forest.resolve [.container { label := "ΑΣ" } [leaf]] " > "
  obtain ⟨l, hl, hpath⟩ : ∃ l ∈ r.leaves, l.path = "" ++ "ΑΣ > Β" ++ "ΣΓ" := ⟨_, List.mem_singleton_self _, rfl⟩
  obtain ⟨-, hfinds, -⟩ := filterByPath_finds_parts hl hpath
  exact ⟨r, l, hfinds (keepsSigmas_iff.mpr (by decide +kernel)), hpath⟩

/-- A pattern that ends within a word, behind a sigma of that word. It is a part of the path, but its sigma is final
and that of the path is not. -/
theorem filterByPath_misses_cut_word :
    ∃ r : Resolved, ∃ l ∈ r.leaves, l.path = "ΑΣ" ++ "Β" ∧ l ∉ r.filterByPath "ΑΣ" := by
  let r : Resolved := Forest.resolve [.leaf { label := "ΑΣΒ" } ⟨default, .noop⟩ none] " > "
  obtain ⟨l, hl, hpath⟩ : ∃ l ∈ r.leaves, l.path = "ΑΣ" ++ "Β" := ⟨_, List.mem_singleton_self _, rfl⟩
  refine ⟨r, l, hl, hpath, fun hmem => ?_⟩
  have hoccurs := (List.mem_filter.mp hmem).2
  rw [hpath] at hoccurs
  exact absurd hoccurs (by decide +kernel)

end SpecForest.Resolved

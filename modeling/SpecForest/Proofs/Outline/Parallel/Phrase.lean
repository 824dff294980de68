import SpecForest.Proofs.Outline.Parallel.Value

/-!
# Plain phrases end before commas

Whether tokens are a plain phrase does not depend on what stands behind them, as long as this is nothing or a comma:
they are cut off there if and only if they are read to their end when they stand alone. So plain phrases are read
exactly.
-/

namespace SpecForest.Outline

/-! ## Readers of phrases side by side -/

/-- If the readers of inner phrases are in step, then so are those that allow for one more level. -/
theorem inStep_read_succ {n d d' : Nat} (h : PhrasesInStep n (Phrase.read d) (Phrase.read d')) {ends : Ends}
    {inside : Bool} {t t' : Stream} (hp : Beside ends t t') (goal : Goal) (ht : 2 * t.weight + goal.rank ≤ n) :
    InStep ends inside (fun _ => 0) (Phrase.read (d + 1) goal) (Phrase.read (d' + 1) goal) t t' := by
  cases goal with
  | type plus => exact Grammar.inStep_type h hp ht plus
  | bound => exact Grammar.inStep_bound h hp ht
  | value => exact Grammar.inStep_value h hp ht
  | operand => exact Grammar.inStep_operand h hp ht
  | operation base left => exact Grammar.inStep_operation h hp ht base left

/-- A reader with more depth reads what one with less depth does. -/
theorem phrasesInStep_of_le (n : Nat) {d d' : Nat} (h : d ≤ d') : PhrasesInStep n (Phrase.read d) (Phrase.read d') := by
  induction d generalizing n d' with
  | zero => exact fun _ _ _ _ _ _ _ => .missing _ _
  | succ d ih =>
    intro ends inside goal t t' hp ht
    cases d' with
    | zero => omega
    | succ d' => exact inStep_read_succ (ih n (by omega)) hp goal (by omega)

/-- A reader needs no more depth than its stream has tokens. -/
theorem phrasesInStep_of_depth (n : Nat) {d d' : Nat} (hd : n ≤ d) (hd' : n ≤ d') :
    PhrasesInStep n (Phrase.read d) (Phrase.read d') := by
  induction n generalizing d d' with
  | zero => exact fun _ _ _ _ _ _ ht => absurd ht (Nat.not_lt_zero _)
  | succ n ih =>
    intro ends inside goal t t' hp ht
    cases d with
    | zero => omega
    | succ d =>
      cases d' with
      | zero => omega
      | succ d' => exact inStep_read_succ (ih (by omega) (by omega)) hp goal (by omega)

/-! ## Phrases that are cut off -/

/-- Tokens that are read to their end as a phrase. -/
def IsRead (goal : Goal) (s : Stream) : Prop := s ≠ [] ∧ ∃ p leftover, Phrase.start goal s = .ok (p, ⟨[], leftover⟩)

theorem start_append_iff {goal : Goal} {v back : Stream} (hback : EndsPhrase back) {p : Phrase}
    {leftover : Option Delimiter} :
    Phrase.start goal (v ++ back) = .ok (p, ⟨back, leftover⟩) ↔ Phrase.start goal v = .ok (p, ⟨[], leftover⟩) := by
  have hnil : EndsPhrase [] := .inl rfl
  have hrank : goal.rank ≤ 1 := by cases goal <;> simp [Goal.rank]
  have hdepth : v.phraseDepth ≤ (v ++ back).phraseDepth := by
    simp only [Stream.phraseDepth, weight_append]
    omega
  constructor
  · intro h
    -- without the end, first at the same depth and then at the depth that the tokens have themselves
    let d := (v ++ back).phraseDepth
    have hshort := phrasesInStep_of_le (2 * (v ++ back).weight + 2) (Nat.le_refl d) ⟨back, [], hback, hnil⟩ false
      goal _ _ (.before v) (by simp only; omega)
    have halone := hshort.right [] h
    simp only [List.append_nil] at halone
    have hsame := phrasesInStep_of_depth v.phraseDepth hdepth (Nat.le_refl _) .none false goal _ _ (.none v)
      (by simp only [Stream.phraseDepth]; omega)
    exact hsame.right [] halone
  · intro h
    have hlong := phrasesInStep_of_le (2 * v.weight + 2) hdepth ⟨[], back, hnil, hback⟩ false goal _ _
      (.before v) (by simp only [List.append_nil]; omega)
    simp only [List.append_nil] at hlong
    exact hlong.right [] h

theorem start_suffix {goal : Goal} {s : Stream} {p : Phrase} {r : Remainder} (h : Phrase.start goal s = .ok (p, r)) :
    r.stream <:+ s := by
  have hstep := phrasesInStep_of_le (2 * s.weight + 2) (Nat.le_refl s.phraseDepth) .none false goal _ _ (.none s)
    (by cases goal <;> simp only [Goal.rank] <;> omega)
  exact (hstep _ _ _ _ h).1

theorem takePhrase_eq_ok_iff {goal : Goal} {s v back : Stream} :
    takePhrase goal s = .ok (v, back) ↔
      v ≠ [] ∧ s = v ++ back ∧ ∃ p leftover, Phrase.start goal s = .ok (p, ⟨back, leftover⟩) := by
  unfold takePhrase
  cases hstart : Phrase.start goal s with
  | error e => simp
  | ok found =>
    obtain ⟨p, u, leftover⟩ := found
    obtain ⟨front, rfl⟩ := start_suffix hstart
    have hcount : (front ++ u).length - u.length = front.length := by simp
    simp only [hcount, List.take_left, List.drop_left]
    cases front with
    | nil =>
      constructor
      · exact nofun
      · rintro ⟨hv, hs, _, _, hfound⟩
        cases hfound
        exact absurd (List.append_left_eq_self.mp hs.symm) hv
    | cons x front =>
      constructor
      · rintro ⟨⟩
        exact ⟨List.cons_ne_nil x front, rfl, p, leftover, rfl⟩
      · rintro ⟨hv, hs, _, _, hfound⟩
        cases hfound
        obtain rfl := List.append_cancel_right hs
        rfl

/-- A phrase is cut off before a comma or the end if and only if it is read to its end when it stands alone. -/
theorem takePhrase_append_iff {goal : Goal} {v back : Stream} (hback : EndsPhrase back) :
    takePhrase goal (v ++ back) = .ok (v, back) ↔ IsRead goal v := by
  rw [takePhrase_eq_ok_iff, IsRead]
  simp only [start_append_iff hback, true_and]

/-- Tokens that are one plain phrase: they are read to their end, and no brackets inside hold more than was read. -/
structure IsPlain (goal : Goal) (s : Stream) : Prop where
  read : IsRead goal s
  leftover : phraseLeftover? goal s = none

theorem exact_plain (goal : Goal) : (PhraseSort.plain goal).Exact (IsPlain goal) where
  takes h hrest := (takePhrase_append_iff hrest).mpr h.read
  leftover h := h.leftover
  taken {s phrase rest} htake hrest hleftover := by
    obtain rfl := takePhrase_append htake
    exact ⟨(takePhrase_append_iff hrest).mp htake, hleftover⟩

end SpecForest.Outline

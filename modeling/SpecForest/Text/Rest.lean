/-!
# What is left of a text

A reader cuts characters off the front of a text and goes on with the rest. The lemmas here say that the
rest is shorter, which is why reading comes to an end.
-/

namespace SpecForest.Text

/-- Behind a character that was found somewhere in a text, less than the text is left. -/
theorem length_lt_of_drop_eq_cons {n : Nat} {cs rest : List Char} {c : Char}
    (h : cs.drop n = c :: rest) : rest.length < cs.length := by
  have := congrArg List.length h
  simp only [List.length_drop, List.length_cons] at this
  omega

/-- Leaving out characters at the front makes no text longer. -/
theorem length_dropWhile_le (p : Char → Bool) (cs : List Char) :
    (cs.dropWhile p).length ≤ cs.length :=
  (List.dropWhile_suffix p).length_le

end SpecForest.Text

import SpecForest.Outline.Error
import SpecForest.Outline.Stream

/-!
# The language around an outline

The types of parameters and the values of rows are phrases of the language around an outline. An outline does not
know what they are: a `Language` cuts them off a stream and says how they are written in generated code. All that is
built in is that a phrase is the start of the stream from which it is cut off, and not empty.

That phrases end where they should is a property of the language, `PhraseSort.Exact`.
-/

namespace SpecForest.Outline

/-- How phrases of a sort are read and written. -/
structure PhraseSort where
  /-- Cuts the phrase at the start of a stream off it. -/
  take : Stream → Except OutlineError (Stream × Stream)
  /-- The first brackets in a phrase that hold more than was read in them. This is found out only when all else has
  been read. -/
  leftover? : Stream → Option Delimiter
  /-- A phrase as it is written in generated code. -/
  write : Stream → Stream
  take_ne_nil : ∀ {s phrase rest : Stream}, take s = .ok (phrase, rest) → phrase ≠ []
  take_append : ∀ {s phrase rest : Stream}, take s = .ok (phrase, rest) → s = phrase ++ rest

/-- A language around outlines. -/
structure Language where
  types : PhraseSort
  values : PhraseSort
  /-- A type as text. -/
  typeText : Stream → String

theorem PhraseSort.weight_take {sort : PhraseSort} {s phrase rest : Stream} (h : sort.take s = .ok (phrase, rest)) :
    Stream.weight rest < Stream.weight s := by
  obtain ⟨t, front, rfl⟩ := List.exists_cons_of_ne_nil (sort.take_ne_nil h)
  have hpos := weight_pos t
  rw [sort.take_append h, weight_append]
  simp only [Stream.weight, Tree.allWeight]
  omega

/-! ## Where phrases end -/

/-- What can stand behind a phrase: nothing, or a comma and anything. -/
def EndsPhrase (s : Stream) : Prop := s = [] ∨ ∃ spacing rest, s = .punct ',' spacing :: rest

/-- A phrase takes exactly its own tokens where nothing or a comma stands behind it, and what is taken there, with
nothing left over in its brackets, is a phrase. -/
structure PhraseSort.Exact (sort : PhraseSort) (IsPhrase : Stream → Prop) : Prop where
  takes : ∀ {phrase rest : Stream}, IsPhrase phrase → EndsPhrase rest → sort.take (phrase ++ rest) = .ok (phrase, rest)
  leftover : ∀ {phrase : Stream}, IsPhrase phrase → sort.leftover? phrase = none
  taken : ∀ {s phrase rest : Stream}, sort.take s = .ok (phrase, rest) → EndsPhrase rest →
    sort.leftover? phrase = none → IsPhrase phrase

end SpecForest.Outline

import SpecForest.Outline.Emit
import SpecForest.Outline.Grammar
import SpecForest.Outline.Parser

/-!
# Outlines in the plain language

The language whose types and values are plain phrases, and what reading and writing outlines comes to in it.
-/

namespace SpecForest.Outline

theorem takePhrase_ne_nil {goal : Goal} {s phrase rest : Stream} (h : takePhrase goal s = .ok (phrase, rest)) :
    phrase ≠ [] := by
  unfold takePhrase at h
  split at h
  · cases h
  · dsimp only at h
    split at h
    · cases h
    · rename_i r _ hn
      cases h
      intro hnil
      rcases List.take_eq_nil_iff.mp hnil with hzero | rfl
      · exact hn hzero
      · simp at hn

theorem takePhrase_append {goal : Goal} {s phrase rest : Stream} (h : takePhrase goal s = .ok (phrase, rest)) :
    s = phrase ++ rest := by
  unfold takePhrase at h
  split at h
  · cases h
  · dsimp only at h
    split at h
    · cases h
    · cases h
      exact (List.take_append_drop _ s).symm

/-- The plain phrases of a sort. -/
def PhraseSort.plain (goal : Goal) : PhraseSort where
  take := takePhrase goal
  leftover? := phraseLeftover? goal
  write := writePhrase goal
  take_ne_nil := takePhrase_ne_nil
  take_append := takePhrase_append

/-- The language whose phrases are plain. -/
def plain : Language where
  types := .plain (.type true)
  values := .plain .value
  typeText s := (writePhrase (.type true) s).text

/-- The items of an outline's text. -/
def parse (source : String) : Except OutlineError (List Item) := plain.parse source

/-- An expression for the declarations of an outline. -/
def emitDeclarations (cs : List Code) : Stream := plain.emitDeclarations cs

/-- An expression for the resolved tree of an outline. -/
def emitResolved (cs : List Code) : Stream := plain.emitResolved cs

/-- The type of a parameter as text. -/
def Param.typeText (p : Param) : String := plain.typeText p.type

/-- A value as it is written. -/
def Stream.valueTokens (s : Stream) : Stream := plain.values.write s

end SpecForest.Outline

import SpecForest.Proofs.Source.Pairing

/-!
# Balanced brackets

The brackets of a list of tokens form a word over three kinds of brackets. Grouping succeeds exactly if this
word is balanced. Otherwise the fault is at the first closing bracket with which the word read so far can
no longer be extended to a balanced one, or, if there is none, at the last opening bracket that is never
closed.

The middle term is `openAfter`, a reader of words that keeps the brackets that are open on a stack.
-/

namespace SpecForest.Source

/-! ## Words of brackets -/

/-- A bracket as a letter. -/
inductive Bracket
  | opening (d : Delimiter)
  | closing (d : Delimiter)
  deriving DecidableEq

/-- The bracket that a token is. -/
def TokenKind.bracket? : TokenKind → Option Bracket
  | opening d => some (.opening d)
  | closing d => some (.closing d)
  | _ => none

/-- The brackets among some tokens, in order. -/
def brackets (ts : List Token) : List Bracket :=
  ts.filterMap fun t => t.kind.bracket?

/-- A word in which every bracket is closed by one of its kind, and pairs do not cross. -/
inductive Balanced : List Bracket → Prop
  | nil : Balanced []
  | enclose (d : Delimiter) {w : List Bracket} :
      Balanced w → Balanced (.opening d :: (w ++ [.closing d]))
  | append {v w : List Bracket} : Balanced v → Balanced w → Balanced (v ++ w)

/-- A word with which some balanced word begins. -/
def Extendable (w : List Bracket) : Prop := ∃ v, Balanced (w ++ v)

@[simp] theorem brackets_nil : brackets [] = [] := rfl

@[simp] theorem brackets_append (a b : List Token) : brackets (a ++ b) = brackets a ++ brackets b :=
  List.filterMap_append

theorem brackets_plain {t : Token} (h : t.kind.isBracket = false) (ts : List Token) :
    brackets (t :: ts) = brackets ts := by
  apply List.filterMap_cons_none
  cases hkind : t.kind with
  | opening d => simp [hkind, TokenKind.isBracket] at h
  | closing d => simp [hkind, TokenKind.isBracket] at h
  | _ => rfl

theorem brackets_opening {t : Token} {d : Delimiter} (h : t.kind = .opening d) (ts : List Token) :
    brackets (t :: ts) = .opening d :: brackets ts := by
  apply List.filterMap_cons_some
  rw [h]
  rfl

theorem brackets_closing {t : Token} {d : Delimiter} (h : t.kind = .closing d) (ts : List Token) :
    brackets (t :: ts) = .closing d :: brackets ts := by
  apply List.filterMap_cons_some
  rw [h]
  rfl

/-! ## A stack of open brackets -/

/-- The brackets that are open behind a word, innermost first, given those that are open before it. There
is no answer if the word closes a bracket that is not the innermost. -/
def openAfter (stack : List Delimiter) : List Bracket → Option (List Delimiter)
  | [] => some stack
  | .opening d :: w => openAfter (d :: stack) w
  | .closing d :: w =>
    match stack with
    | [] => none
    | e :: outer => if e = d then openAfter outer w else none

theorem openAfter_append (stack : List Delimiter) (v w : List Bracket) :
    openAfter stack (v ++ w) = (openAfter stack v).bind fun s => openAfter s w := by
  induction v generalizing stack with
  | nil => rfl
  | cons b v ih =>
    cases b with
    | opening d => exact ih (d :: stack)
    | closing d =>
      cases stack with
      | nil => rfl
      | cons e outer =>
        by_cases h : e = d
        · simp [openAfter, h, ih]
        · simp [openAfter, h]

/-- A balanced word leaves the stack as it is. -/
theorem Balanced.openAfter_eq {w : List Bracket} (h : Balanced w) (stack : List Delimiter) :
    openAfter stack w = some stack := by
  induction h generalizing stack with
  | nil => rfl
  | enclose d hw ih =>
    show openAfter (d :: stack) (_ ++ [.closing d]) = some stack
    rw [openAfter_append, ih (d :: stack)]
    simp [openAfter]
  | append hv hw ihv ihw => rw [openAfter_append, ihv stack, Option.bind_some, ihw stack]

/-- A word on which the stack fails has no balanced extension. -/
theorem not_extendable_of_openAfter {w : List Bracket} (h : openAfter [] w = none) : ¬ Extendable w := by
  rintro ⟨v, hbalanced⟩
  have hrun := hbalanced.openAfter_eq []
  rw [openAfter_append, h] at hrun
  cases hrun

theorem Extendable.exists_openAfter {w : List Bracket} (h : Extendable w) :
    ∃ stack, openAfter [] w = some stack := by
  cases hrun : openAfter [] w with
  | none => exact absurd h (not_extendable_of_openAfter hrun)
  | some stack => exact ⟨stack, rfl⟩

/-! ## Trees and balanced words -/

mutual

theorem TokenTree.Fits.balanced {t : TokenTree} (h : t.Fits) : Balanced (brackets t.tokens) := by
  cases t with
  | token t =>
    rw [TokenTree.tokens, brackets_plain h]
    exact .nil
  | group opening closing d inner =>
    obtain ⟨hopen, hclose, hinner⟩ := h
    rw [TokenTree.tokens, List.cons_append, brackets_opening hopen, brackets_append,
      brackets_closing hclose]
    exact .enclose d (balanced_of_allFit hinner)

theorem balanced_of_allFit {ts : List TokenTree} (h : AllFit ts) :
    Balanced (brackets (TokenTree.allTokens ts)) := by
  cases ts with
  | nil => exact .nil
  | cons t rest =>
    obtain ⟨ht, hrest⟩ := h
    rw [TokenTree.allTokens, brackets_append]
    exact .append ht.balanced (balanced_of_allFit hrest)

end

/-- Grouping goes through tokens as long as the stack does, whatever follows. -/
theorem groupFrom_openAfter {ts : List Token} (frames : List Frame) {stack : List Delimiter}
    (h : openAfter (frames.map Frame.delimiter) (brackets ts) = some stack) (current : List TokenTree) :
    ∃ frames' current', frames'.map Frame.delimiter = stack ∧
      frameTokens current' frames' = frameTokens current frames ++ ts ∧
      ∀ rest, groupFrom frames current (ts ++ rest) = groupFrom frames' current' rest := by
  induction ts generalizing frames current with
  | nil =>
    cases h
    exact ⟨frames, current, rfl, by simp, fun rest => rfl⟩
  | cons t ts ih =>
    by_cases hplain : t.kind.isBracket = false
    · rw [brackets_plain hplain] at h
      obtain ⟨frames', current', hstack, htokens, hgroup⟩ := ih frames h (.token t :: current)
      refine ⟨frames', current', hstack, ?_, fun rest => ?_⟩
      · rw [htokens, frameTokens_push]
        simp [TokenTree.tokens]
      · rw [List.cons_append, groupFrom_plain hplain, hgroup]
    · cases hkind : t.kind with
      | opening d =>
        rw [brackets_opening hkind] at h
        have hnext : openAfter ((⟨t, d, current⟩ :: frames : List Frame).map Frame.delimiter)
            (brackets ts) = some stack := h
        obtain ⟨frames', current', hstack, htokens, hgroup⟩ := ih _ hnext []
        refine ⟨frames', current', hstack, ?_, fun rest => ?_⟩
        · rw [htokens]
          simp [frameTokens, TokenTree.allTokens]
        · rw [List.cons_append, groupFrom_opening hkind, hgroup]
      | closing d =>
        rw [brackets_closing hkind] at h
        cases frames with
        | nil => cases h
        | cons f outer =>
          by_cases hd : f.delimiter = d
          · subst hd
            simp only [List.map_cons, openAfter, if_true] at h
            obtain ⟨frames', current', hstack, htokens, hgroup⟩ :=
              ih outer h (.group f.opening t f.delimiter current.reverse :: f.before)
            refine ⟨frames', current', hstack, ?_, fun rest => ?_⟩
            · rw [htokens, frameTokens_push]
              simp [frameTokens, TokenTree.tokens]
            · rw [List.cons_append, groupFrom_closing hkind, hgroup]
          · simp [openAfter, hd] at h
      | _ => simp [hkind, TokenKind.isBracket] at hplain

/-- Tokens that leave no bracket open are the tokens of trees. -/
theorem exists_trees_of_openAfter {ts : List Token} (h : openAfter [] (brackets ts) = some []) :
    ∃ trees, AllFit trees ∧ TokenTree.allTokens trees = ts := by
  obtain ⟨frames, current, hstack, -, hgroup⟩ := groupFrom_openAfter [] h []
  have hempty : frames = [] := List.map_eq_nil_iff.mp hstack
  have hok : group ts = .ok current.reverse := by
    have hall := hgroup []
    rw [List.append_nil, hempty] at hall
    exact hall
  exact ⟨current.reverse, (group_eq_ok_iff ts current.reverse).mp hok⟩

/-- Tokens with balanced brackets are the tokens of trees. -/
theorem Balanced.exists_trees {ts : List Token} (h : Balanced (brackets ts)) :
    ∃ trees, AllFit trees ∧ TokenTree.allTokens trees = ts :=
  exists_trees_of_openAfter (h.openAfter_eq [])

/-- The brackets of some tokens are balanced if none is left open and each closes the innermost one. -/
theorem balanced_brackets_iff (ts : List Token) :
    Balanced (brackets ts) ↔ openAfter [] (brackets ts) = some [] := by
  constructor
  · intro h
    exact h.openAfter_eq []
  · intro h
    obtain ⟨trees, hfit, rfl⟩ := exists_trees_of_openAfter h
    exact balanced_of_allFit hfit

instance (ts : List Token) : Decidable (Balanced (brackets ts)) :=
  decidable_of_iff _ (balanced_brackets_iff ts).symm

/-- Grouping accepts exactly the balanced words. -/
theorem exists_group_iff_balanced (ts : List Token) :
    (∃ trees, group ts = .ok trees) ↔ Balanced (brackets ts) := by
  constructor
  · rintro ⟨trees, hok⟩
    obtain ⟨hfit, rfl⟩ := (group_eq_ok_iff ts trees).mp hok
    exact balanced_of_allFit hfit
  · intro h
    obtain ⟨trees, htrees⟩ := h.exists_trees
    exact ⟨trees, (group_eq_ok_iff ts trees).mpr htrees⟩

/-! ## Brackets that are open -/

/-- Behind what has been read, the brackets of the frames are open. -/
theorem openAfter_frameTokens {frames : List Frame} {current : List TokenTree} (hframes : FramesFit frames)
    (hcurrent : AllFit current.reverse) :
    openAfter [] (brackets (frameTokens current frames)) = some (frames.map Frame.delimiter) := by
  induction frames generalizing current with
  | nil => exact (balanced_of_allFit hcurrent).openAfter_eq []
  | cons f outer ih =>
    obtain ⟨hopen, hbefore, houter⟩ := hframes
    rw [frameTokens, brackets_append, openAfter_append, ih houter hbefore, Option.bind_some,
      brackets_opening hopen]
    exact (balanced_of_allFit hcurrent).openAfter_eq _

/-- What has been read can be extended: close the open brackets one by one. -/
theorem extendable_frameTokens {frames : List Frame} {current : List TokenTree} (hframes : FramesFit frames)
    (hcurrent : AllFit current.reverse) : Extendable (brackets (frameTokens current frames)) := by
  induction frames generalizing current with
  | nil =>
    refine ⟨[], ?_⟩
    rw [List.append_nil]
    exact balanced_of_allFit hcurrent
  | cons f outer ih =>
    obtain ⟨hopen, hbefore, houter⟩ := hframes
    -- any closing bracket of the right kind makes a group of what is in the innermost frame
    let closing : Token := { f.opening with kind := .closing f.delimiter }
    have hnext : AllFit (.group f.opening closing f.delimiter current.reverse :: f.before).reverse := by
      rw [List.reverse_cons]
      exact allFit_append.mpr ⟨hbefore, ⟨hopen, rfl, hcurrent⟩, trivial⟩
    obtain ⟨v, hv⟩ := ih houter hnext
    refine ⟨.closing f.delimiter :: v, ?_⟩
    have hclose : brackets [closing] = [.closing f.delimiter] := brackets_closing rfl []
    have hword : brackets (frameTokens (.group f.opening closing f.delimiter current.reverse :: f.before) outer) =
        brackets (frameTokens current (f :: outer)) ++ [.closing f.delimiter] := by
      rw [← hclose, ← brackets_append, frameTokens_push]
      simp [frameTokens, TokenTree.tokens]
    rw [hword, List.append_assoc] at hv
    exact hv

/-! ## Faults -/

/-- Why some tokens cannot be grouped, and the fault that says so. -/
inductive Misfit : List Token → LexError → Prop
  /-- A closing bracket meets an innermost open bracket of another kind. -/
  | mismatched {before between after : List Token} {o t : Token} {d e : Delimiter}
      (opened : o.kind = .opening d) (inside : Balanced (brackets between)) (closes : t.kind = .closing e)
      (differ : d ≠ e) (extendable : Extendable (brackets (before ++ o :: between)))
      (stops : ¬ Extendable (brackets (before ++ o :: between ++ [t]))) :
      Misfit (before ++ o :: between ++ t :: after) ⟨t.start, .mismatched d o.start⟩
  /-- A closing bracket comes when none is open. -/
  | unbalanced {before after : List Token} {t : Token} {e : Delimiter}
      (inside : Balanced (brackets before)) (closes : t.kind = .closing e)
      (stops : ¬ Extendable (brackets (before ++ [t]))) :
      Misfit (before ++ t :: after) ⟨t.start, .unbalanced⟩
  /-- Every closing bracket fits, but an opening bracket is never closed, and it is the last one. -/
  | unclosed {before between : List Token} {o : Token} {d : Delimiter}
      (opened : o.kind = .opening d) (inside : Balanced (brackets between))
      (extendable : Extendable (brackets (before ++ o :: between))) :
      Misfit (before ++ o :: between) ⟨o.start, .unclosed d⟩

/-- The fault of grouping from some state on is that of all tokens, those read before included. -/
theorem groupFrom_eq_error {ts : List Token} {frames : List Frame} {current : List TokenTree}
    {error : LexError} (hframes : FramesFit frames) (hcurrent : AllFit current.reverse)
    (h : groupFrom frames current ts = .error error) : Misfit (frameTokens current frames ++ ts) error := by
  -- a step moves a token from what is to be read to what has been read, which stays extendable
  induction ts generalizing frames current with
  | nil =>
    cases frames with
    | nil => cases h
    | cons f outer =>
      cases h
      have hextendable := extendable_frameTokens hframes hcurrent
      rw [List.append_nil]
      exact .unclosed hframes.1 (balanced_of_allFit hcurrent) hextendable
  | cons t rest ih =>
    by_cases hplain : t.kind.isBracket = false
    · rw [groupFrom_plain hplain] at h
      have hnext : AllFit (.token t :: current).reverse := by
        rw [List.reverse_cons]
        exact allFit_append.mpr ⟨hcurrent, hplain, trivial⟩
      have hmisfit := ih hframes hnext h
      rw [frameTokens_push, TokenTree.tokens, List.append_assoc] at hmisfit
      exact hmisfit
    · cases hkind : t.kind with
      | opening d =>
        rw [groupFrom_opening hkind] at h
        have hempty : AllFit ([] : List TokenTree).reverse := trivial
        have hnext : FramesFit (⟨t, d, current⟩ :: frames) := ⟨hkind, hcurrent, hframes⟩
        have hmisfit := ih hnext hempty h
        rw [frameTokens, List.append_assoc] at hmisfit
        exact hmisfit
      | closing d =>
        have hstack := openAfter_frameTokens hframes hcurrent
        have hword : openAfter [] (brackets (frameTokens current frames ++ [t])) =
            openAfter (frames.map Frame.delimiter) [.closing d] := by
          rw [brackets_append, brackets_closing hkind, openAfter_append, hstack]
          rfl
        cases frames with
        | nil =>
          have herror : error = ⟨t.start, .unbalanced⟩ := by simpa [groupFrom, hkind, eq_comm] using h
          subst herror
          exact .unbalanced (balanced_of_allFit hcurrent) hkind (not_extendable_of_openAfter hword)
        | cons f outer =>
          by_cases hd : f.delimiter = d
          · subst hd
            obtain ⟨hopen, hbefore, houter⟩ := hframes
            rw [groupFrom_closing hkind] at h
            have hnext : AllFit (.group f.opening t f.delimiter current.reverse :: f.before).reverse := by
              rw [List.reverse_cons]
              exact allFit_append.mpr ⟨hbefore, ⟨hopen, hkind, hcurrent⟩, trivial⟩
            have hmisfit := ih houter hnext h
            rw [frameTokens_push] at hmisfit
            simpa [frameTokens, TokenTree.tokens] using hmisfit
          · have herror : error = ⟨t.start, .mismatched f.delimiter f.opening.start⟩ := by
              simpa [groupFrom, hkind, hd, eq_comm] using h
            subst herror
            have hnone : openAfter [] (brackets (frameTokens current (f :: outer) ++ [t])) = none := by
              rw [hword]
              simp [openAfter, hd]
            exact .mismatched hframes.1 (balanced_of_allFit hcurrent) hkind hd
              (extendable_frameTokens hframes hcurrent) (not_extendable_of_openAfter hnone)
      | _ => simp [hkind, TokenKind.isBracket] at hplain

/-- What is extendable is read without a fault, whatever follows. -/
theorem Extendable.exists_frames {ts : List Token} (h : Extendable (brackets ts)) :
    ∃ frames current, frameTokens current frames = ts ∧
      ∀ rest, group (ts ++ rest) = groupFrom frames current rest := by
  obtain ⟨stack, hstack⟩ := h.exists_openAfter
  obtain ⟨frames, current, -, htokens, hgroup⟩ := groupFrom_openAfter [] hstack []
  exact ⟨frames, current, htokens, hgroup⟩

/-- Brackets of which the first is open behind balanced ones. -/
theorem Extendable.exists_frame {before between : List Token} {o : Token} {d : Delimiter}
    (h : Extendable (brackets (before ++ o :: between))) (opened : o.kind = .opening d)
    (inside : Balanced (brackets between)) :
    ∃ outer outside current, ∀ rest, group (before ++ o :: between ++ rest) =
      groupFrom (⟨o, d, outside⟩ :: outer) current rest := by
  obtain ⟨v, hv⟩ := h
  have hbefore : Extendable (brackets before) := ⟨brackets (o :: between) ++ v, by simpa using hv⟩
  obtain ⟨frames, outside, -, hread⟩ := hbefore.exists_frames
  obtain ⟨trees, hfit, rfl⟩ := inside.exists_trees
  refine ⟨frames, outside, trees.reverse ++ [], fun rest => ?_⟩
  rw [List.append_assoc, hread, List.cons_append, groupFrom_opening opened, groupFrom_allTokens hfit]

/-- Grouping fails exactly with the fault of the tokens. -/
theorem group_eq_error_iff (ts : List Token) (error : LexError) :
    group ts = .error error ↔ Misfit ts error := by
  constructor
  · intro h
    have hempty : AllFit ([] : List TokenTree).reverse := trivial
    exact groupFrom_eq_error (show FramesFit [] from trivial) hempty h
  · intro h
    cases h with
    | mismatched opened inside closes differ extendable stops =>
      obtain ⟨outer, outside, current, hread⟩ := extendable.exists_frame opened inside
      rw [hread]
      simp [groupFrom, closes, differ]
    | unbalanced inside closes stops =>
      obtain ⟨trees, hfit, rfl⟩ := inside.exists_trees
      rw [group, groupFrom_allTokens hfit]
      simp [groupFrom, closes]
    | unclosed opened inside extendable =>
      obtain ⟨outer, outside, current, hread⟩ := extendable.exists_frame opened inside
      have hend := hread []
      rw [List.append_nil] at hend
      rw [hend]
      rfl

end SpecForest.Source

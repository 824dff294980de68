import SpecForest.Source.TokenTree

/-!
# Trees and their tokens

Grouping succeeds exactly on the tokens of trees whose brackets fit, and gives these trees back. So trees
with fitting brackets and balanced lists of tokens are the same thing.
-/

namespace SpecForest.Source

/-- Whether a token opens or closes a group. -/
def TokenKind.isBracket : TokenKind → Bool
  | opening _ => true
  | closing _ => true
  | _ => false

mutual

/-- The brackets of every group fit, and nothing else is a bracket. -/
def TokenTree.Fits : TokenTree → Prop
  | .token t => t.kind.isBracket = false
  | .group opening closing d inner =>
    opening.kind = .opening d ∧ closing.kind = .closing d ∧ AllFit inner

/-- The brackets of all trees fit. -/
def AllFit : List TokenTree → Prop
  | [] => True
  | t :: rest => t.Fits ∧ AllFit rest

end

theorem allFit_append {a b : List TokenTree} : AllFit (a ++ b) ↔ AllFit a ∧ AllFit b := by
  induction a with
  | nil => simp [AllFit]
  | cons t rest ih => simp [AllFit, ih, and_assoc]

@[simp] theorem allTokens_append (a b : List TokenTree) :
    TokenTree.allTokens (a ++ b) = TokenTree.allTokens a ++ TokenTree.allTokens b := by
  induction a with
  | nil => rfl
  | cons t rest ih => simp only [List.cons_append, TokenTree.allTokens, ih, List.append_assoc]

theorem groupFrom_plain {t : Token} (h : t.kind.isBracket = false) (frames : List Frame)
    (current : List TokenTree) (rest : List Token) :
    groupFrom frames current (t :: rest) = groupFrom frames (.token t :: current) rest := by
  cases hkind : t.kind with
  | opening d => simp [hkind, TokenKind.isBracket] at h
  | closing d => simp [hkind, TokenKind.isBracket] at h
  | _ => simp [groupFrom, hkind]

theorem groupFrom_opening {t : Token} {d : Delimiter} (h : t.kind = .opening d) (frames : List Frame)
    (current : List TokenTree) (rest : List Token) :
    groupFrom frames current (t :: rest) = groupFrom (⟨t, d, current⟩ :: frames) [] rest := by
  simp [groupFrom, h]

theorem groupFrom_closing {t : Token} {f : Frame} (h : t.kind = .closing f.delimiter)
    (outer : List Frame) (current : List TokenTree) (rest : List Token) :
    groupFrom (f :: outer) current (t :: rest) =
      groupFrom outer (.group f.opening t f.delimiter current.reverse :: f.before) rest := by
  simp [groupFrom, h]

mutual

/-- The tokens of a tree are grouped into the tree, whatever is open around it. -/
theorem groupFrom_tokens {t : TokenTree} (h : t.Fits) (frames : List Frame) (current : List TokenTree)
    (rest : List Token) :
    groupFrom frames current (t.tokens ++ rest) = groupFrom frames (t :: current) rest := by
  cases t with
  | token t => exact groupFrom_plain h frames current rest
  | group opening closing d inner =>
    obtain ⟨hopen, hclose, hinner⟩ := h
    simp only [TokenTree.tokens, List.cons_append, List.append_assoc, List.nil_append]
    rw [groupFrom_opening hopen, groupFrom_allTokens hinner, List.append_nil,
      groupFrom_closing hclose, List.reverse_reverse]

theorem groupFrom_allTokens {ts : List TokenTree} (h : AllFit ts) (frames : List Frame)
    (current : List TokenTree) (rest : List Token) :
    groupFrom frames current (TokenTree.allTokens ts ++ rest) =
      groupFrom frames (ts.reverse ++ current) rest := by
  cases ts with
  | nil => rfl
  | cons t ts =>
    obtain ⟨ht, hts⟩ := h
    rw [TokenTree.allTokens, List.append_assoc, groupFrom_tokens ht, groupFrom_allTokens hts]
    simp

end

/-! ## The tokens of open groups -/

/-- The tokens of what has been read, with some brackets open. -/
def frameTokens (current : List TokenTree) : List Frame → List Token
  | [] => TokenTree.allTokens current.reverse
  | f :: outer => frameTokens f.before outer ++ f.opening :: TokenTree.allTokens current.reverse

/-- Every open bracket is one, and all before it fits. -/
def FramesFit : List Frame → Prop
  | [] => True
  | f :: outer => f.opening.kind = .opening f.delimiter ∧ AllFit f.before.reverse ∧ FramesFit outer

/-- What grouping gives fits, and has the tokens read before and those still to be read. -/
theorem groupFrom_eq_ok {ts : List Token} {frames : List Frame} {current trees : List TokenTree}
    (hframes : FramesFit frames) (hcurrent : AllFit current.reverse)
    (h : groupFrom frames current ts = .ok trees) :
    AllFit trees ∧ TokenTree.allTokens trees = frameTokens current frames ++ ts := by
  -- a step only moves a token from what is to be read to what has been read
  induction ts generalizing frames current with
  | nil =>
    cases frames with
    | nil =>
      cases h
      exact ⟨hcurrent, by simp [frameTokens]⟩
    | cons f outer => cases h
  | cons t rest ih =>
    by_cases hplain : t.kind.isBracket = false
    · rw [groupFrom_plain hplain] at h
      have hnext : AllFit (.token t :: current).reverse := by
        rw [List.reverse_cons]
        exact allFit_append.mpr ⟨hcurrent, hplain, trivial⟩
      obtain ⟨hfit, htokens⟩ := ih hframes hnext h
      refine ⟨hfit, ?_⟩
      rw [htokens]
      cases frames <;> simp [frameTokens, TokenTree.allTokens, TokenTree.tokens]
    · cases hkind : t.kind with
      | opening d =>
        rw [groupFrom_opening hkind] at h
        have hnext : FramesFit (⟨t, d, current⟩ :: frames) := ⟨hkind, hcurrent, hframes⟩
        have hempty : AllFit ([] : List TokenTree).reverse := trivial
        obtain ⟨hfit, htokens⟩ := ih hnext hempty h
        refine ⟨hfit, ?_⟩
        rw [htokens]
        simp [frameTokens, TokenTree.allTokens]
      | closing d =>
        cases frames with
        | nil => simp [groupFrom, hkind] at h
        | cons f outer =>
          by_cases hd : f.delimiter = d
          · subst hd
            obtain ⟨hopen, hbefore, houter⟩ := hframes
            rw [groupFrom_closing hkind] at h
            have hnext : AllFit (.group f.opening t f.delimiter current.reverse :: f.before).reverse := by
              rw [List.reverse_cons]
              exact allFit_append.mpr ⟨hbefore, ⟨hopen, hkind, hcurrent⟩, trivial⟩
            obtain ⟨hfit, htokens⟩ := ih houter hnext h
            refine ⟨hfit, ?_⟩
            rw [htokens]
            cases outer <;> simp [frameTokens, TokenTree.allTokens, TokenTree.tokens]
          · simp [groupFrom, hkind, hd] at h
      | _ => simp [hkind, TokenKind.isBracket] at hplain

/-- Grouping gives trees exactly if they fit and have the tokens. -/
theorem group_eq_ok_iff (ts : List Token) (trees : List TokenTree) :
    group ts = .ok trees ↔ AllFit trees ∧ TokenTree.allTokens trees = ts := by
  constructor
  · intro h
    have hempty : AllFit ([] : List TokenTree).reverse := trivial
    obtain ⟨hfit, htokens⟩ := groupFrom_eq_ok (show FramesFit [] from trivial) hempty h
    exact ⟨hfit, by simpa [frameTokens, TokenTree.allTokens] using htokens⟩
  · rintro ⟨hfit, rfl⟩
    have hgroup := groupFrom_allTokens hfit [] [] []
    rw [List.append_nil, List.append_nil] at hgroup
    rw [group, hgroup, groupFrom, List.reverse_reverse]

/-! ## Pieces between commas -/

/-- What stands before the first comma is a piece, and what stands behind it is split in turn. -/
theorem splitArguments_comma {ts : List TokenTree} (hno : ∀ t ∈ ts, t.isComma = false) {comma : Token}
    (hcomma : comma.kind = .comma) (rest : List TokenTree) :
    splitArguments (ts ++ .token comma :: rest) = ts :: splitArguments rest := by
  induction ts with
  | nil => rw [List.nil_append, splitArguments, if_pos (by simp [TokenTree.isComma, hcomma])]
  | cons t ts ih =>
    have ht := hno t List.mem_cons_self
    rw [List.cons_append, splitArguments, if_neg (by simp [ht]),
      ih fun u hu => hno u (List.mem_cons_of_mem t hu)]

/-- Trees without a comma are one piece. -/
theorem splitArguments_single {ts : List TokenTree} (hne : ts ≠ []) (hno : ∀ t ∈ ts, t.isComma = false) :
    splitArguments ts = [ts] := by
  induction ts with
  | nil => exact absurd rfl hne
  | cons t ts ih =>
    have ht := hno t List.mem_cons_self
    rw [splitArguments, if_neg (by simp [ht])]
    cases ts with
    | nil => rfl
    | cons u us => rw [ih (by simp) fun v hv => hno v (List.mem_cons_of_mem t hv)]

/-- Induction piece by piece: there is nothing, or one last piece, or a piece with a comma behind it. -/
@[elab_as_elim]
theorem splitArguments_induct {motive : List TokenTree → Prop} (nil : motive [])
    (single : ∀ ts, ts ≠ [] → (∀ t ∈ ts, t.isComma = false) → motive ts)
    (comma : ∀ ts comma rest, (∀ t ∈ ts, t.isComma = false) → comma.kind = .comma → motive rest →
      motive (ts ++ .token comma :: rest))
    (ts : List TokenTree) : motive ts := by
  -- the trees since the last comma stand before those that are still to be looked at
  suffices h : ∀ before : List TokenTree, (∀ t ∈ before, t.isComma = false) → motive (before ++ ts) from
    h [] (by simp)
  induction ts with
  | nil =>
    intro before hno
    rw [List.append_nil]
    by_cases hempty : before = []
    · rw [hempty]
      exact nil
    · exact single before hempty hno
  | cons t rest ih =>
    intro before hno
    by_cases hcomma : t.isComma = true
    · cases t with
      | token t => exact comma before t rest hno (by simpa [TokenTree.isComma] using hcomma) (ih [] (by simp))
      | group opening closing d inner => cases hcomma
    · have hnext := ih (before ++ [t]) (by simpa [or_imp, forall_and] using ⟨hno, by simpa using hcomma⟩)
      rwa [List.append_assoc] at hnext

end SpecForest.Source

import SpecForest.Proofs.Source.Pieces
import SpecForest.Proofs.Source.Placement

/-!
# Calls in the table

What the table says about a call, for stretches that belong to trees: whether there is one, its function
literal, its entries, and their values. Each operation gives what the trees give.
-/

namespace SpecForest.Source

/-! ## Widths of parts -/

theorem width_le_of_mem_splitArguments {ts piece : List TokenTree} (h : piece ∈ splitArguments ts) :
    width piece ≤ width ts := by
  induction ts generalizing piece with
  | nil => simp [splitArguments] at h
  | cons t rest ih =>
    have hcons : ∀ us, width (t :: us) = width [t] + width us := by
      intro us
      rw [← width_append, List.singleton_append]
    rw [hcons]
    rw [splitArguments] at h
    split at h
    · rcases List.mem_cons.mp h with rfl | h
      · simp
      · have := ih h
        omega
    · split at h
      · obtain rfl := List.mem_singleton.mp h
        omega
      · rename_i p ps hps
        rcases List.mem_cons.mp h with rfl | h
        · have := ih (show p ∈ splitArguments rest by simp [hps])
          rw [hcons]
          omega
        · have := ih (show piece ∈ splitArguments rest by simp [hps, h])
          omega

/-- The shape of an argument that is a function literal. -/
theorem functionLiteral?_eq_some {ts : List TokenTree} {f : FunctionLiteral}
    (h : functionLiteral? ts = some f) :
    ∃ t opening closing between first last, t.isName "func" = true ∧
      ts = .token t :: .group opening closing .paren f.params ::
        (between ++ [.group first last .brace f.body]) := by
  unfold functionLiteral? at h
  split at h
  · rename_i t opening closing params rest
    split at h
    · rename_i hfunc
      split at h
      · rename_i first last body hlast
        cases h
        obtain ⟨between, rfl⟩ := List.getLast?_eq_some_iff.mp hlast
        exact ⟨t, opening, closing, between, first, last, hfunc, rfl⟩
      · cases h
    · cases h
  · cases h

theorem width_functionLiteral {ts : List TokenTree} {f : FunctionLiteral} (h : functionLiteral? ts = some f) :
    width f.params < width ts ∧ width f.body < width ts := by
  obtain ⟨t, opening, closing, between, first, last, _, rfl⟩ := functionLiteral?_eq_some h
  simp only [width_token, width_group, width_append, width_nil]
  omega

theorem width_bodyOf? {inner : List TokenTree} {f : FunctionLiteral}
    (h : bodyOf? (splitArguments inner) = some f) :
    width f.params < width inner ∧ width f.body < width inner := by
  obtain ⟨arg, hmem, harg⟩ := List.exists_of_findSome?_eq_some h
  have hpiece := width_le_of_mem_splitArguments (List.mem_of_mem_drop hmem)
  obtain ⟨hparams, hbody⟩ := width_functionLiteral harg
  omega

theorem ne_opening_of_isBracket {k : TokenKind} (h : k.isBracket = false) (d : Delimiter) :
    k ≠ .opening d := by
  rintro rfl
  cases h

theorem callAt?_eq_some {prior : Prior} {ts : List TokenTree} {k : CallKind} (h : callAt? prior ts = some k) :
    ∃ name opening closing inner rest, ts = .token name :: .group opening closing .paren inner :: rest ∧
      prior = .other ∧ name.callKind? = some k := by
  unfold callAt? at h
  split at h
  · split at h
    · exact ⟨_, _, _, _, _, rfl, by assumption, h⟩
    · cases h
  · cases h

theorem entry?_of_callAt? {ts : List TokenTree} (h : callAt? .other ts = none) : entry? ts = none := by
  unfold entry?
  split
  · rw [callAt?, if_pos rfl] at h
    simp [h]
  · rfl

namespace Listing

variable {l : Listing}

/-! ## Calls -/

/-- What comes behind some trees is the end of the stretch, or a slot that opens no parenthesis. -/
def EndsBefore (l : Listing) (i stop : Nat) : Prop :=
  i < stop → ∃ s, l.slots[i]? = some s ∧ s.kind ≠ .opening .paren

/-- Whether a function is declared at an index is what stands before it. -/
def Stands (l : Listing) (i : Nat) (prior : Prior) : Prop :=
  l.followsFunc i = .ok (decide (prior = .func)) ∧ l.declaresFunction i = .ok (decide (prior ≠ .other))

theorem stands_of_clear {i : Nat} (h : l.Clear i) : l.Stands i .other := h

theorem callAt_of_kind {i stop : Nat} {s : Slot} (hs : l.slots[i]? = some s) (h : s.kind ≠ .name) :
    l.callAt i stop = .ok none := by
  rw [callAt, hs]
  exact if_neg fun hboth => h hboth.1

/-- There is no call at the end of a stretch. -/
theorem callAt_of_end {i stop : Nat} (h : stop ≤ i + 1) : l.callAt i stop = .ok none := by
  rw [callAt]
  split
  · rfl
  · exact if_neg fun hboth => Nat.not_lt_of_le h hboth.2

/-- A name is called if a parenthesis is behind it, unless a function is declared with it. -/
theorem callAt_of_next {i stop : Nat} {prior : Prior} {t : Token} {rest : List TokenTree} {next : Slot}
    (h : l.Holds i (.token t :: rest)) (hlt : i + 1 < stop) (hnext : l.slots[i + 1]? = some next)
    (hprior : l.Stands i prior) :
    l.callAt i stop = .ok (if next.kind = .opening .paren ∧ prior = .other then t.callKind? else none) := by
  by_cases hname : t.kind = .name
  · have hslot : t.slot.kind = .name ∧ i + 1 < stop := ⟨hname, hlt⟩
    rw [callAt, h.token.1]
    simp only
    rw [if_pos hslot, h.textAt, Checked.ok_bind, Token.callKind?, if_pos hname]
    cases plainKind? (baseName t.text) with
    | none =>
      rw [ite_self]
      rfl
    | some k =>
      simp only [slotAt_eq hnext, Checked.ok_bind]
      by_cases hparen : next.kind = .opening .paren
      · rw [if_pos hparen, hprior.2, Checked.ok_bind]
        by_cases hother : prior = .other
        · simp [hparen, hother, pure, Except.pure]
        · simp [hother, pure, Except.pure]
      · rw [if_neg hparen, if_neg fun hboth => hparen hboth.1]
        rfl
  · rw [callAt_of_kind h.token.1 hname, Token.callKind?, if_neg hname, ite_self]

/-- A call is found in the table where one is found in the trees. -/
theorem callAt_eq {i stop : Nat} {prior : Prior} {t : TokenTree} {rest : List TokenTree}
    (h : l.Holds i (t :: rest)) (hstop : i + width (t :: rest) ≤ stop)
    (hends : l.EndsBefore (i + width (t :: rest)) stop) (hprior : l.Stands i prior) :
    l.callAt i stop = .ok (callAt? prior (t :: rest)) := by
  match t, rest with
  | .group opening closing d inner, rest =>
    have hbracket : opening.kind = .opening d := h.fits.1.1
    exact callAt_of_kind h.group.1 (by simp [hbracket])
  | .token t, [] =>
    by_cases hlt : i + 1 < stop
    · obtain ⟨next, hnext, hparen⟩ := hends hlt
      rw [callAt_of_next h hlt hnext hprior, if_neg fun hboth => hparen hboth.1]
      rfl
    · exact callAt_of_end (Nat.not_lt.mp hlt)
  | .token t, .token u :: more =>
    have hparen : u.slot.kind ≠ .opening .paren := ne_opening_of_isBracket h.fits.2.1 .paren
    rw [width_token, width_token] at hstop
    rw [callAt_of_next h (by omega) h.token.2.token.1 hprior, if_neg fun hboth => hparen hboth.1]
    rfl
  | .token t, .group opening closing d inner :: more =>
    have hbracket : opening.kind = .opening d := h.fits.2.1.1
    rw [width_token, width_group] at hstop
    rw [callAt_of_next h (by omega) h.token.2.group.1 hprior]
    cases d <;> simp [hbracket, callAt?]

/-! ## Arguments of a call -/

/-- What stands between the brackets of a group is a piece. -/
theorem Holds.isPiece {i : Nat} {opening closing : Token} {d : Delimiter} {inner rest : List TokenTree}
    (h : l.Holds i (.group opening closing d inner :: rest)) :
    l.IsPiece ⟨i + 1, i + 1 + width inner⟩ inner := by
  obtain ⟨hopening, hinner, hclosing, _⟩ := h.group
  have hbracket : opening.kind = .opening d := h.fits.1.1
  refine ⟨hinner, rfl, ?_, clear_of_slot hopening (by simp [hbracket]) (by simp [hbracket])⟩
  exact Nat.le_of_lt (List.getElem?_eq_some_iff.mp hclosing).1

theorem IsPiece.length_eq {a : Stretch} {ts : List TokenTree} (h : l.IsPiece a ts) :
    a.length = width ts := by
  rw [Stretch.length, h.stop, Nat.add_sub_cancel_left]

theorem label_eq {args : List Stretch} {pieces : List (List TokenTree)}
    (h : List.Forall₂ l.IsPiece args pieces) : l.label args = .ok (labelOf pieces) := by
  cases h with
  | nil => rfl
  | cons hfirst _ =>
    rw [label, value_eq hfirst]
    rfl

/-- Only a name in front can make a decorator of an argument. -/
theorem isDecorator_of_token {t : Token} (h : t.isDecorator = false) (rest : List TokenTree) :
    Source.isDecorator (.token t :: rest) = false := by
  unfold Source.isDecorator
  split
  · rename_i heq
    cases heq
    exact h
  · rename_i heq
    cases heq
    exact h
  · rfl

/-- Behind the name of a decorator comes nothing, or one pair of parentheses. -/
theorem isDecorator_of_name {a : Stretch} {t : Token} {rest : List TokenTree}
    (h : l.IsPiece a (.token t :: rest)) (hdecorator : t.isDecorator = true) :
    l.isDecorator a = .ok (Source.isDecorator (.token t :: rest)) := by
  have hstop := h.stop
  have hlength := h.length_eq
  rw [width_token] at hstop hlength
  obtain ⟨hslot, hrest⟩ := h.holds.token
  obtain ⟨hname, hmem⟩ : t.slot.kind = .name ∧ decorators.contains t.text = true := by
    simpa [Token.isDecorator] using hdecorator
  rw [isDecorator, if_pos (by omega), slotAt_eq hslot, Checked.ok_bind, if_pos hname, h.holds.textAt,
    Checked.ok_bind, if_pos hmem]
  match rest, hrest with
  | [], _ =>
    rw [width_nil, Nat.zero_add] at hlength
    rw [if_pos hlength, Source.isDecorator, hdecorator]
    rfl
  | .token u :: more, hrest =>
    have hparen : u.slot.kind ≠ .opening .paren := ne_opening_of_isBracket hrest.fits.1 .paren
    rw [width_token] at hlength
    rw [if_neg (by omega), slotAt_eq hrest.token.1, Checked.ok_bind, if_neg hparen]
    rfl
  | .group opening closing d inner :: more, hrest =>
    have hbracket : opening.kind = .opening d := hrest.fits.1.1
    have hopening := hrest.group.1
    rw [width_group] at hlength hstop
    rw [if_neg (by omega), slotAt_eq hopening, Checked.ok_bind, partnerOf_eq hopening, Checked.ok_bind]
    cases d with
    | paren =>
      have hkind : (opening.slot.pairedWith (a.start + 1 + 1 + width inner)).kind = .opening .paren :=
        hbracket
      rw [if_pos hkind]
      -- the parentheses end the argument exactly if no tree is behind them
      cases more with
      | nil =>
        have hend : a.start + 1 + 1 + width inner + 1 = a.stop := by
          rw [width_nil] at hstop
          omega
        simp [Slot.pairedWith, hend, Source.isDecorator, hdecorator, pure, Except.pure]
      | cons v more =>
        have hpos := width_pos (show v :: more ≠ [] by simp)
        have hend : a.start + 1 + 1 + width inner + 1 ≠ a.stop := by omega
        simp [Slot.pairedWith, hend, Source.isDecorator, pure, Except.pure]
    | brace => simp [hbracket, Source.isDecorator, pure, Except.pure]
    | bracket => simp [hbracket, Source.isDecorator, pure, Except.pure]

/-- An argument is a decorator in the table if it is one in the trees. -/
theorem isDecorator_eq {a : Stretch} {ts : List TokenTree} (h : l.IsPiece a ts) :
    l.isDecorator a = .ok (Source.isDecorator ts) := by
  have hstop := h.stop
  match ts, h with
  | [], _ =>
    rw [width_nil, Nat.add_zero] at hstop
    rw [isDecorator, if_neg (by omega)]
    rfl
  | .group opening closing d inner :: rest, h =>
    have hname : (opening.slot.pairedWith (a.start + 1 + width inner)).kind ≠ .name := by
      have hbracket : opening.kind = .opening d := h.holds.fits.1.1
      simp [hbracket]
    rw [width_group] at hstop
    rw [isDecorator, if_pos (by omega), slotAt_eq h.holds.group.1, Checked.ok_bind, if_neg hname]
    cases rest <;> rfl
  | .token t :: rest, h =>
    by_cases hdecorator : t.isDecorator = true
    · exact isDecorator_of_name h hdecorator
    · rw [width_token] at hstop
      rw [isDecorator_of_token (by simpa using hdecorator), isDecorator, if_pos (by omega),
        slotAt_eq h.holds.token.1, Checked.ok_bind]
      by_cases hname : t.slot.kind = .name
      · have hmem : ¬ decorators.contains t.text = true := by
          intro hmem
          have hkind : t.kind = .name := hname
          exact hdecorator (by simp only [Token.isDecorator, hkind, hmem, beq_self_eq_true, Bool.and_self])
        rw [if_pos hname, h.holds.textAt, Checked.ok_bind, if_neg hmem]
        rfl
      · rw [if_neg hname]
        rfl

/-- The values of some arguments, without the decorators. -/
theorem values_eq {args : List Stretch} {pieces : List (List TokenTree)}
    (h : List.Forall₂ l.IsPiece args pieces) :
    l.values args = .ok ((pieces.filter fun p => !Source.isDecorator p).map readValue) := by
  induction h with
  | nil => rfl
  | @cons a ts args pieces hpiece _ ih =>
    rw [values, isDecorator_eq hpiece, Checked.ok_bind, ih]
    cases hdecorator : Source.isDecorator ts with
    | true => simp [hdecorator]
    | false =>
      rw [value_eq hpiece]
      simp [hdecorator, Checked.ok_bind, pure, Except.pure]

/-- An argument is an entry in the table if it is one in the trees. -/
theorem entry_eq {a : Stretch} {ts : List TokenTree} (h : l.IsPiece a ts) {fuel : Nat}
    (hfuel : width ts < fuel) : l.entry fuel a = .ok (Source.entry? ts) := by
  have hstop := h.stop
  have hbeyond : l.EndsBefore (a.start + width ts) a.stop := fun hlt => absurd hlt (by omega)
  match ts, h with
  | [], _ =>
    rw [width_nil] at hstop
    rw [entry, callAt_of_end (by omega)]
    rfl
  | t :: rest, h =>
    rw [entry, callAt_eq h.holds (by omega) hbeyond (stands_of_clear h.clear), Checked.ok_bind]
    cases hcall : callAt? .other (t :: rest) with
    | none =>
      rw [entry?_of_callAt? hcall]
      rfl
    | some k =>
      obtain ⟨name, opening, closing, inner, more, heq, _, hkind⟩ := callAt?_eq_some hcall
      cases heq
      have hgroup := h.holds.token.2
      rw [width_token, width_group] at hstop hfuel
      have hclose : l.partnerOf (a.start + 1) = .ok (a.start + 1 + 1 + width inner) :=
        partnerOf_eq hgroup.group.1
      simp only [hclose, Checked.ok_bind]
      -- only a call that is the whole argument is an entry
      cases more with
      | cons v more =>
        have hpos := width_pos (show v :: more ≠ [] by simp)
        rw [if_neg fun hboth => absurd hboth.2 (by omega)]
        rfl
      | nil =>
        rw [width_nil] at hstop
        by_cases hentry : k = .entry
        · subst hentry
          obtain ⟨args, hargs, hpieces⟩ := split_eq hgroup.isPiece (show width inner < fuel by omega)
          rw [if_pos ⟨rfl, by omega⟩, hargs, Checked.ok_bind, entry?, if_pos hkind]
          generalize splitArguments inner = pieces at hpieces
          cases hpieces with
          | nil => rfl
          | cons hdescription hparams =>
            simp only [values_eq hparams, value_eq hdescription, Checked.ok_bind]
            unfold entryOf
            generalize readValue _ = v
            cases v <;> rfl
        · have hother : name.callKind? ≠ some .entry := by
            rw [hkind]
            simpa using hentry
          rw [if_neg fun hboth => hentry hboth.1, entry?, if_neg hother]
          rfl

theorem entries_eq {args : List Stretch} {pieces : List (List TokenTree)}
    (h : List.Forall₂ l.IsPiece args pieces) {fuel : Nat} (hfuel : ∀ p ∈ pieces, width p < fuel) :
    l.entries fuel args = .ok (pieces.filterMap entry?) := by
  induction h with
  | nil => rfl
  | @cons a ts args pieces hpiece _ ih =>
    rw [entries, entry_eq hpiece (hfuel ts List.mem_cons_self), Checked.ok_bind,
      ih fun p hp => hfuel p (List.mem_cons_of_mem ts hp), List.filterMap_cons]
    cases entry? ts with
    | none => rfl
    | some e => rfl

/-! ## Function literals -/

/-- Two stretches belong to the parameters and the body of a function literal. -/
structure IsFunction (l : Listing) (f : Stretch × Stretch) (g : FunctionLiteral) : Prop where
  params : l.IsPiece f.1 g.params
  body : l.IsPiece f.2 g.body

/-- The word `func` is a name, so no bracket has this text. -/
theorem Holds.text_func {i : Nat} {t : TokenTree} {rest : List TokenTree} (h : l.Holds i (t :: rest)) :
    ∃ text, l.textAt i = .ok text ∧ (text = "func" ↔ ∃ u, t = .token u ∧ u.isName "func" = true) := by
  cases t with
  | token u =>
    have hgenuine := (runIn_append (a := [u]) h.run).1.genuine (List.mem_singleton.mpr rfl)
    refine ⟨u.text, h.textAt, ?_⟩
    constructor
    · intro htext
      refine ⟨u, rfl, ?_⟩
      rw [Token.isName, hgenuine.kind_of_func htext, htext]
      simp
    · rintro ⟨v, heq, hname⟩
      obtain rfl := TokenTree.token.inj heq
      rw [Token.isName, Bool.and_eq_true] at hname
      exact eq_of_beq hname.2
  | group opening closing d inner =>
    have hbracket : opening.kind = .opening d := h.fits.1.1
    have hrun := (runIn_append (a := [opening]) h.run).1
    refine ⟨opening.text, textAt_eq h.group.1 (opening.slot_shows.pairedWith _) hrun, ?_⟩
    constructor
    · intro htext
      have hname := (hrun.genuine (List.mem_singleton.mpr rfl)).kind_of_func htext
      rw [hbracket] at hname
      cases hname
    · rintro ⟨v, heq, _⟩
      cases heq

theorem function_of_next {a : Stretch} {word : Token} {rest : List TokenTree} {s : Slot}
    (h : l.IsPiece a (.token word :: rest)) (hword : word.isName "func" = true) (hlong : ¬ a.length < 4)
    (hs : l.slots[a.start + 1]? = some s) (hparen : s.kind ≠ .opening .paren) : l.function a = .ok none := by
  obtain ⟨text, htext, hfunc⟩ := h.holds.text_func
  have htrue : (text == "func") = true := by simpa using hfunc.mpr ⟨word, rfl, hword⟩
  rw [function, if_neg hlong, htext, Checked.ok_bind, if_pos htrue, slotAt_eq hs, Checked.ok_bind,
    if_neg hparen]
  rfl

/-- Behind the word and the parameters, the last token decides. -/
theorem function_of_last {a : Stretch} {word opening closing : Token} {params more : List TokenTree}
    {s : Slot}
    (h : l.IsPiece a (.token word :: .group opening closing .paren params :: more))
    (hword : word.isName "func" = true) (hlong : ¬ a.length < 4) (hs : l.slots[a.stop - 1]? = some s) :
    l.function a = .ok (
      if s.kind = .closing .brace ∧ a.start + 1 + 1 + width params < s.partner.getD (a.stop - 1) then
        some (⟨a.start + 1 + 1, a.start + 1 + 1 + width params⟩,
          ⟨s.partner.getD (a.stop - 1) + 1, a.stop - 1⟩)
      else none) := by
  obtain ⟨text, htext, hfunc⟩ := h.holds.text_func
  have hopening := h.holds.token.2.group.1
  have hkind : (opening.slot.pairedWith (a.start + 1 + 1 + width params)).kind = .opening .paren :=
    h.holds.fits.2.1.1
  have hclose : l.partnerOf (a.start + 1) = .ok (a.start + 1 + 1 + width params) := partnerOf_eq hopening
  have hdifference : difference a.stop 1 = .ok (a.stop - 1) := by
    rw [Stretch.length] at hlong
    exact if_pos (by omega)
  have htrue : (text == "func") = true := by simpa using hfunc.mpr ⟨word, rfl, hword⟩
  rw [function, if_neg hlong, htext, Checked.ok_bind, if_pos htrue, slotAt_eq hopening, Checked.ok_bind,
    if_pos hkind, hclose, Checked.ok_bind, hdifference, Checked.ok_bind, slotAt_eq hs, Checked.ok_bind,
    partnerOf_eq hs]
  by_cases hbrace : s.kind = .closing .brace
  · rw [if_pos hbrace, Checked.ok_bind]
    by_cases hle : s.partner.getD (a.stop - 1) ≤ a.start + 1 + 1 + width params
    · rw [if_pos hle, if_neg (by omega)]
      rfl
    · rw [if_neg hle, if_pos ⟨hbrace, by omega⟩]
      rfl
  · rw [if_neg hbrace, if_neg fun hboth => hbrace hboth.1]
    rfl

theorem function_of_params {a : Stretch} {word opening closing : Token} {params more : List TokenTree}
    (h : l.IsPiece a (.token word :: .group opening closing .paren params :: more))
    (hword : word.isName "func" = true) (hlong : ¬ a.length < 4) :
    ∃ f, l.function a = .ok f ∧ Option.Rel l.IsFunction f
      (functionLiteral? (.token word :: .group opening closing .paren params :: more)) := by
  have hstop := h.stop
  obtain ⟨_, _, hclosing, hmore⟩ := h.holds.token.2.group
  rw [functionLiteral?, if_pos hword]
  -- with nothing behind the parameters, their own bracket is the last token, and it closes no body
  rcases List.eq_nil_or_concat more with rfl | ⟨between, last, rfl⟩
  · have hbracket : closing.kind = .closing .paren := h.holds.fits.2.1.2.1
    have hindex : a.start + 1 + 1 + width params = a.stop - 1 := by
      rw [hstop, width_token, width_group, width_nil]
      omega
    rw [hindex] at hclosing
    refine ⟨none, ?_, .none⟩
    rw [function_of_last h hword hlong hclosing, if_neg (by simp [hbracket])]
  · rw [List.concat_eq_append] at h hstop hmore ⊢
    rw [List.getLast?_concat]
    have hlast := hmore.append.2
    rw [width_token, width_group, width_append] at hstop
    cases last with
    | token u =>
      obtain ⟨hslot, _⟩ := hlast.token
      rw [width_token, width_nil] at hstop
      rw [show a.start + 1 + 1 + width params + 1 + width between = a.stop - 1 by omega] at hslot
      refine ⟨none, ?_, .none⟩
      rw [function_of_last h hword hlong hslot, if_neg]
      rintro ⟨hbrace, _⟩
      have hplain : u.slot.kind.isBracket = false := hlast.fits.1
      rw [hbrace] at hplain
      cases hplain
    | group first final d body =>
      obtain ⟨_, _, hslot, _⟩ := hlast.group
      have hbracket : final.kind = .closing d := hlast.fits.1.2.1
      have hbody := hlast.isPiece
      rw [width_group, width_nil] at hstop
      have hindex : a.start + 1 + 1 + width params + 1 + width between + 1 + width body = a.stop - 1 := by
        omega
      rw [hindex] at hslot hbody
      rw [function_of_last h hword hlong hslot]
      refine ⟨_, rfl, ?_⟩
      cases d with
      | brace =>
        rw [if_pos ⟨hbracket, by simp [Slot.pairedWith]; omega⟩]
        exact .some ⟨h.holds.token.2.isPiece, hbody⟩
      | paren =>
        rw [if_neg (by simp [hbracket])]
        exact .none
      | bracket =>
        rw [if_neg (by simp [hbracket])]
        exact .none

/-- An argument is a function literal in the table if it is one in the trees, with the same parts. -/
theorem function_eq {a : Stretch} {ts : List TokenTree} (h : l.IsPiece a ts) :
    ∃ f, l.function a = .ok f ∧ Option.Rel l.IsFunction f (functionLiteral? ts) := by
  have hlength := h.length_eq
  have hnone : l.function a = .ok none → functionLiteral? ts = none →
      ∃ f, l.function a = .ok f ∧ Option.Rel l.IsFunction f (functionLiteral? ts) := by
    intro hfunction hliteral
    exact ⟨none, hfunction, by rw [hliteral]; exact .none⟩
  by_cases hshort : a.length < 4
  · refine hnone (by rw [function, if_pos hshort]) ?_
    rw [Option.eq_none_iff_forall_ne_some]
    intro f hf
    obtain ⟨_, _, _, _, _, _, _, rfl⟩ := functionLiteral?_eq_some hf
    simp only [width_token, width_group, width_append, width_nil] at hlength
    omega
  match ts, h with
  | [], _ => exact absurd hlength (by simp; omega)
  | t :: rest, h =>
    obtain ⟨text, htext, hfunc⟩ := h.holds.text_func
    by_cases hword : ∃ u, t = .token u ∧ u.isName "func" = true
    · obtain ⟨word, rfl, hword⟩ := hword
      match rest, h with
      | [], _ =>
        rw [width_token, width_nil] at hlength
        omega
      | .token u :: more, h =>
        have hparen : u.slot.kind ≠ .opening .paren := ne_opening_of_isBracket h.holds.fits.2.1 .paren
        exact hnone (function_of_next h hword hshort h.holds.token.2.token.1 hparen) rfl
      | .group opening closing .brace params :: more, h =>
        have hbracket : opening.kind = .opening .brace := h.holds.fits.2.1.1
        exact hnone (function_of_next h hword hshort h.holds.token.2.group.1 (by simp [hbracket])) rfl
      | .group opening closing .bracket params :: more, h =>
        have hbracket : opening.kind = .opening .bracket := h.holds.fits.2.1.1
        exact hnone (function_of_next h hword hshort h.holds.token.2.group.1 (by simp [hbracket])) rfl
      | .group opening closing .paren params :: more, h => exact function_of_params h hword hshort
    · have hfalse : ¬ (text == "func") = true := by
        intro htrue
        exact hword (hfunc.mp (by simpa using htrue))
      refine hnone ?_ ?_
      · rw [function, if_neg hshort, htext, Checked.ok_bind, if_neg hfalse]
        rfl
      · rw [Option.eq_none_iff_forall_ne_some]
        intro f hf
        obtain ⟨u, _, _, _, _, _, hu, heq⟩ := functionLiteral?_eq_some hf
        exact hword ⟨u, (List.cons.inj heq).1, hu⟩

theorem firstFunction_eq {args : List Stretch} {pieces : List (List TokenTree)}
    (h : List.Forall₂ l.IsPiece args pieces) :
    ∃ f, l.firstFunction args = .ok f ∧ Option.Rel l.IsFunction f (pieces.findSome? functionLiteral?) := by
  induction h with
  | nil => exact ⟨none, rfl, .none⟩
  | @cons a ts args pieces hpiece _ ih =>
    obtain ⟨f, hf, hrel⟩ := function_eq hpiece
    rw [firstFunction, hf, Checked.ok_bind, List.findSome?_cons]
    cases hliteral : functionLiteral? ts with
    | none =>
      rw [hliteral] at hrel
      cases hrel
      exact ih
    | some g =>
      rw [hliteral] at hrel
      cases hrel with
      | some hfunction => exact ⟨_, rfl, .some hfunction⟩

/-! ## Parameters -/

/-- The tokens from an index on, brackets included, are these. -/
structure Lists (l : Listing) (i : Nat) (ts : List Token) : Prop where
  slots : ∀ k t, ts[k]? = some t → ∃ s, l.slots[i + k]? = some s ∧ s.Shows t
  run : RunIn l.source ts

theorem Holds.lists {i : Nat} {ts : List TokenTree} (h : l.Holds i ts) : l.Lists i (TokenTree.allTokens ts) :=
  ⟨fun _ _ ht => h.exists_slot ht, h.run⟩

theorem Lists.cons {i : Nat} {t : Token} {rest : List Token} (h : l.Lists i (t :: rest)) :
    (∃ s, l.slots[i]? = some s ∧ s.Shows t) ∧ l.Lists (i + 1) rest := by
  refine ⟨h.slots 0 t rfl, ⟨?_, (runIn_append (a := [t]) h.run).2⟩⟩
  intro k u hu
  rw [Nat.add_assoc, Nat.add_comm 1 k]
  exact h.slots (k + 1) u hu

theorem textIn_eq {i : Nat} {ts : List Token} (h : l.Lists i ts) :
    l.textIn ts.length i = .ok (String.join (ts.map Token.text)) := by
  induction ts generalizing i with
  | nil => rfl
  | cons t rest ih =>
    obtain ⟨⟨s, hs, hshows⟩, hrest⟩ := h.cons
    have htext := textAt_eq hs hshows (runIn_append (a := [t]) h.run).1
    rw [List.length_cons, textIn, htext, Checked.ok_bind, ih hrest, Checked.ok_bind]
    simp [pure, Except.pure]

theorem hasEllipsis_eq {i : Nat} {ts : List Token} (h : l.Lists i ts) :
    l.hasEllipsis ts.length i = .ok (ts.any (·.kind == .ellipsis)) := by
  induction ts generalizing i with
  | nil => rfl
  | cons t rest ih =>
    obtain ⟨⟨s, hs, hshows⟩, hrest⟩ := h.cons
    rw [List.length_cons, hasEllipsis, slotAt_eq hs, Checked.ok_bind, hshows.1, ih hrest, List.any_cons]
    by_cases hkind : t.kind = .ellipsis
    · simp [hkind, pure, Except.pure]
    · simp [hkind]

theorem isContextParam_eq {a : Stretch} {ts : List TokenTree} (h : l.IsPiece a ts) :
    l.isContextParam a = .ok (Source.isContextParam ts) := by
  have hlists := h.holds.lists
  rw [isContextParam, Source.isContextParam, h.length_eq, width]
  generalize TokenTree.allTokens ts = tokens at hlists
  rcases tokens with _ | ⟨t, _ | ⟨u, rest⟩⟩
  · rfl
  · rfl
  · have htext := textIn_eq hlists.cons.2
    rw [if_neg (by simp), List.length_cons, Nat.add_sub_cancel, htext]
    rfl

/-- The number of arguments that a function literal takes is counted in the table as in the trees. -/
theorem arity_eq {params : Stretch} {f : FunctionLiteral} (h : l.IsPiece params f.params) {fuel : Nat}
    (hfuel : width f.params < fuel) : l.arity fuel params = .ok f.arity := by
  obtain ⟨args, hargs, hpieces⟩ := split_eq h hfuel
  have hellipsis := hasEllipsis_eq h.holds.lists
  rw [arity, hargs, Checked.ok_bind, h.length_eq, width, hellipsis, Checked.ok_bind, FunctionLiteral.arity]
  simp only
  split
  · rfl
  · generalize splitArguments f.params = pieces at hpieces
    cases hpieces with
    | nil => rfl
    | @cons a ts args pieces hfirst hrest =>
      have hlength := hrest.length_eq
      simp only [isContextParam_eq hfirst, Checked.ok_bind]
      cases Source.isContextParam ts with
      | true => simp [difference, hlength, Checked.ok_bind, pure, Except.pure]
      | false => simp [difference, hlength, Checked.ok_bind, pure, Except.pure]

end Listing

end SpecForest.Source

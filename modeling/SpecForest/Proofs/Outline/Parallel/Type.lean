import SpecForest.Proofs.Outline.Parallel.Path

/-!
# Types side by side

The readers of types and bounds are in step, given readers for the phrases inside that are in step on lighter streams.
-/

namespace SpecForest.Outline.Grammar
open Reader

variable {n : Nat} {inner inner' : PhraseReader} {ends : Ends} {inside : Bool} {t t' : Stream}

/-! ## Functions -/

theorem inStep_signature (h : PhrasesInStep n inner inner') (hp : Beside ends t t') (ht : 2 * t.weight ≤ n)
    {param param' : Reader Stream}
    (hparam : ∀ u, u.weight < t.weight → InStep .none false (fun _ => 0) param param' u u) :
    InStep ends inside (fun _ => 1) (signature inner param) (signature inner' param') t t' := by
  have hlist : ∀ content, Stream.weight content < t.weight →
      InStep .none false (fun _ => 0) (list param) (list param') content content :=
    fun content hc => .list fun u hu => hparam u (by omega)
  refine .bind hp (.group hp .paren hlist) fun params u u' hu _ => ?_
  refine .bind hu (.atOperator hu "->" nofun) fun found v v' hv _ => .ite ?_ (.pure hv rfl)
  refine .bind hv (.operator hv "->" nofun) fun arrow w w' hw _ => ?_
  exact .bind hw (inStep_tokens h hw (by omega) (.type false)) fun _ _ _ hx _ => .pure hx rfl

theorem inStep_quantifier (h : PhrasesInStep n inner inner') (hp : Beside ends t t') (ht : 2 * t.weight ≤ n) :
    InStep ends inside (fun _ => 1) (quantifier inner) (quantifier inner') t t' := by
  refine .bind hp (.keyword hp "for") fun word u u' hu _ => ?_
  refine .bind hu (.operator hu "<" nofun) fun opening v v' hv _ => ?_
  refine .closing hv (.rounds hv [] fun before w w' hw _ => ?_) fun params w w' hw _ => ?_
  · refine .bind hw (.atOperator hw ">" nofun) fun closing x x' hx _ => .ite (.pure hx rfl) ?_
    refine .bind hx (.lifetime hx) fun one y y' hy _ => ?_
    refine .bind hy (.atOperator hy ":" nofun) fun found z z' hz _ => ?_
    extract_lets join
    have hjoin : ∀ bounds a a', Beside ends a a' →
        InStep ends true (fun r => (if r.2 then 1 else 0) - 1) (join bounds) (join bounds) a a' := by
      intro bounds a a' ha
      refine .bind ha (.atOperator ha ">" nofun) fun closing b b' hb _ => .ite (.pure hb rfl) ?_
      exact .bind hb (.operator hb "," nofun) fun _ _ _ hc _ => .pure hc rfl
    refine .ite ?_ (hjoin _ _ _ hz)
    refine .bind hz (.operator hz ":" nofun) fun colon a a' ha _ => ?_
    refine .bind ha (inStep_argumentBounds h ha (by omega)) fun bounds b b' hb _ => ?_
    exact (hjoin _ _ _ hb).mono fun _ => by omega
  · exact .bind hw (.operator hw ">" nofun) fun _ _ _ hx _ => .pure hx rfl

theorem inStep_quantifier? (h : PhrasesInStep n inner inner') (hp : Beside ends t t') (ht : 2 * t.weight ≤ n) :
    InStep ends inside (fun _ => 0) (quantifier? inner) (quantifier? inner') t t' := by
  refine .bind hp (.atWord hp "for") fun found u u' hu _ => .ite ?_ (.pure hu rfl)
  exact (inStep_quantifier h hu (by omega)).zero

theorem inStep_functionParam (h : PhrasesInStep n inner inner') (ht : 2 * (t.weight + 1) ≤ n) :
    InStep .none false (fun _ => 0) (functionParam inner) (functionParam inner') t t := by
  have hp := Beside.none t
  refine .rest ?_
  extract_lets join join'
  have hjoin : ∀ label u u', Beside .none u u' → u.weight ≤ t.weight →
      InStep .none false (fun _ => 0) (join label) (join' label) u u' := by
    intro label u u' hu hw
    exact .bind hu (inStep_tokens h hu (by omega) (.type true)) fun _ _ _ hv _ => .pure hv rfl
  split
  · refine .ite ?_ (hjoin _ _ _ hp (Nat.le_refl _))
    refine .bind hp (.skip hp (by simp)) fun _ u u' hu _ => ?_
    exact .bind hu (.operator hu ":" nofun) fun colon v v' hv _ => hjoin _ _ _ hv (by omega)
  · exact hjoin _ _ _ hp (Nat.le_refl _)

theorem inStep_functionType (h : PhrasesInStep n inner inner') (hp : Beside ends t t') (ht : 2 * t.weight ≤ n) :
    InStep ends inside (fun _ => 1) (functionType inner) (functionType inner') t t' := by
  refine .bind hp (.keyword? hp "unsafe") fun safety u u' hu _ => ?_
  refine .bind hu (.atWord hu "extern") fun found v v' hv _ => ?_
  extract_lets join join'
  have hjoin : ∀ convention w w', Beside ends w w' → w.weight ≤ t.weight →
      InStep ends inside (fun _ => 1) (join convention) (join' convention) w w' := by
    intro convention w w' hw hle
    refine .bind hw (.keyword hw "fn") fun word x x' hx _ => ?_
    refine .bind hx (inStep_signature h hx (by omega) ?_) fun _ _ _ hy _ => .pure hy rfl
    exact fun u hu => inStep_functionParam h (by omega)
  refine .ite ?_ (hjoin _ _ _ hv (by omega))
  refine .bind hv (.keyword hv "extern") fun word w w' hw _ => .rest ?_
  rcases hw.cases_head with ⟨x, y, y', rfl, rfl, -⟩ | ⟨rfl | ⟨_, _, rfl⟩, rfl | ⟨_, _, rfl⟩⟩
  · cases x with
    | literal source => exact .bind hw (.skip hw (by simp)) fun _ z z' hz _ => (hjoin _ _ _ hz (by omega)).zero
    | word w => exact (hjoin _ _ _ hw (by omega)).zero
    | punct c spacing => exact (hjoin _ _ _ hw (by omega)).zero
    | group d content => exact (hjoin _ _ _ hw (by omega)).zero
  all_goals exact (hjoin _ _ _ hw (by omega)).zero

/-! ## Bounds -/

/-- Whether arguments in parentheses follow two colons. -/
theorem startsTraitArguments_eq (hp : Beside ends t t') :
    (t'.startsWith "::" && (t'.behind 2).startsWithGroup .paren) =
      (t.startsWith "::" && (t.behind 2).startsWithGroup .paren) := by
  refine and_eq_and (hp.startsWith_eq "::" nofun) fun hstarts => ?_
  rw [(hp.behind_colons hstarts).startsWithGroup_eq]

theorem inStep_traitArguments (h : PhrasesInStep n inner inner') (hp : Beside ends t t') (ht : 2 * t.weight ≤ n) :
    InStep ends inside (fun _ => 0) (traitArguments inner) (traitArguments inner') t t' := by
  refine .rest ?_
  rw [startsTraitArguments_eq hp]
  extract_lets join join'
  have hjoin : ∀ u u', Beside ends u u' → u.weight ≤ t.weight →
      InStep ends inside (fun _ => 0) (join ()) (join' ()) u u' := by
    intro u u' hu hw
    refine .bind hu (.atGroup hu .paren) fun found v v' hv _ => .ite ?_ (.pure hv rfl)
    refine (inStep_signature h hv (by omega) fun w hw => ?_).zero
    exact inStep_tokens h (.none w) (by omega) (.type true)
  refine .ite ?_ (hjoin _ _ hp (Nat.le_refl _))
  exact .bind hp (.operator hp "::" nofun) fun _ u u' hu _ => hjoin u u' hu (by omega)

theorem inStep_traitBound (h : PhrasesInStep n inner inner') (hp : Beside ends t t') (ht : 2 * t.weight ≤ n) :
    InStep ends inside (fun _ => 0) (traitBound inner) (traitBound inner') t t' := by
  refine .bind hp (inStep_quantifier? h hp ht) fun before u u' hu _ => ?_
  refine .bind hu (.operator? hu "?" nofun nofun) fun relaxed v v' hv _ => ?_
  extract_lets join join'
  have hjoin : ∀ after w w', Beside ends w w' → w.weight ≤ t.weight →
      InStep ends inside (fun _ => 0) (join after) (join' after) w w' := by
    intro after w w' hw hle
    refine .bind hw (inStep_plainPath h hw (by omega) .type) fun p x x' hx _ => ?_
    refine .ite (.pure hx rfl) ?_
    exact .bind hx (inStep_traitArguments h hx (by omega)) fun _ _ _ hy _ => .pure hy rfl
  refine .ite ?_ (hjoin _ _ _ hv (by omega))
  exact .bind hv (inStep_quantifier? h hv (by omega)) fun after w w' hw _ => hjoin _ _ _ hw (by omega)

theorem inStep_bound (h : PhrasesInStep n inner inner') (hp : Beside ends t t') (ht : 2 * t.weight ≤ n) :
    InStep ends inside (fun _ => 0) (bound inner) (bound inner') t t' := by
  refine .bind hp (.atLifetime hp) fun found u u' hu _ => .ite ?_ ?_
  · exact .bind hu (.lifetime hu) fun _ _ _ hv _ => .pure hv rfl
  · refine .bind hu (.atGroup hu .paren) fun found v v' hv _ => .ite ?_ ?_
    · refine .bind hv (.group hv .paren fun content hc => ?_) fun _ _ _ hw _ => .pure hw rfl
      exact inStep_traitBound h (.none content) (by omega)
    · exact .bind hv (inStep_traitBound h hv (by omega)) fun _ _ _ hw _ => .pure hw rfl

theorem startsBound_eq (hp : Beside ends t t') : startsBound t' = startsBound t := by
  have hcolons := hp.startsWith_eq "::" nofun
  have hquestion := hp.startsWith_eq "?" nofun
  have hlifetime := hp.startsWithLifetime_eq
  rcases hp.cases_head with ⟨x, u, u', rfl, rfl, -⟩ | ⟨rfl | ⟨_, _, rfl⟩, rfl | ⟨_, _, rfl⟩⟩
  all_goals
    unfold startsBound
    split <;> simp_all

theorem inStep_furtherBounds (h : PhrasesInStep n inner inner') (hp : Beside ends t t') (ht : 2 * t.weight ≤ n)
    (first : Bounds) :
    InStep ends inside (fun _ => 0) (furtherBounds inner first) (furtherBounds inner' first) t t' := by
  refine .rounds hp first fun bs u u' hu _ => ?_
  refine .bind hu (.atOperator hu "+" nofun) fun found v v' hv _ => .ite ?_ (.pure hv rfl)
  refine .bind hv (.operator hv "+" nofun) fun plus w w' hw _ => .rest ?_
  rw [startsBound_eq hw]
  refine .ite ?_ (.pure hw rfl)
  exact .bind hw (inStep_phrase h hw (by omega) .bound) fun _ _ _ hx _ => .pure hx rfl

/-- Bounds begin with a bound, which stands where they do. -/
theorem inStep_bounds (h : PhrasesInStep n inner inner') (hp : Beside ends t t') (ht : 2 * t.weight < n)
    (plus : Bool) : InStep ends inside (fun _ => 0) (bounds inner plus) (bounds inner' plus) t t' := by
  refine .bind hp (h ends inside .bound t t' hp ht) fun b u u' hu _ => .ite ?_ (.pure hu rfl)
  exact inStep_furtherBounds h hu (by omega) _

theorem inStep_addedBounds (h : PhrasesInStep n inner inner') (hp : Beside ends t t') (ht : 2 * t.weight ≤ n) :
    InStep ends inside (fun _ => 0) (addedBounds inner) (addedBounds inner') t t' := by
  refine .rounds hp [] fun before u u' hu _ => ?_
  refine .bind hu (.atOperator hu "+" nofun) fun found v v' hv _ => .ite ?_ (.pure hv rfl)
  refine .bind hv (.operator hv "+" nofun) fun plus w w' hw _ => ?_
  exact .bind hw (inStep_tokens h hw (by omega) .bound) fun _ _ _ hx _ => .pure hx rfl

/-! ## Types by their first token -/

theorem inStep_pathType (h : PhrasesInStep n inner inner') (hp : Beside ends t t') (ht : 2 * t.weight ≤ n)
    (plus : Bool) (quantified : Stream) :
    InStep ends inside (fun _ => 0) (pathType inner plus quantified) (pathType inner' plus quantified) t t' := by
  refine .bind hp (inStep_anyPath h hp ht .type) fun p u u' hu _ => .ite (.pure hu rfl) (.rest ?_)
  rw [p.isCalledLoudly_eq hu]
  refine .ite ?_ ?_
  · refine .bind hu (.operator hu "!" nofun) fun mark v v' hv _ => ?_
    exact .bind hv (.brackets hv) fun _ _ _ hw _ => .pure hw rfl
  · refine .bind hu (.atOperator hu "+" nofun) fun found v v' hv _ => .ite ?_ (.pure hv rfl)
    refine .ite ?_ (.pure hv rfl)
    exact .bind hv (inStep_furtherBounds h hv (by omega) _) fun _ _ _ hw _ => .pure hw rfl

theorem inStep_enclosedTypes (h : PhrasesInStep n inner inner') (ht : 2 * (t.weight + 1) ≤ n) :
    InStep .none false (fun _ => 0) (enclosedTypes inner) (enclosedTypes inner') t t := by
  have hp := Beside.none t
  refine .bind hp (.atEnd hp) fun atEnd u u' hu _ => .ite (.pure hu rfl) ?_
  refine .bind hu (.atLifetime hu) fun found v v' hv _ => .ite ?_ ?_
  · refine .bind hv (inStep_bounds h hv (by omega) true) fun bs w w' hw _ => .ite (.fail _ _) (.pure hw rfl)
  · refine .bind hv (inStep_phrase h hv (by omega) (.type true)) fun first w w' hw _ => ?_
    obtain rfl := hw.eq_of_none
    refine .bind hw (.look hw rfl) fun found x x' hx _ => .ite ?_ (.pure hx rfl)
    refine .bind hx (.operator hx "," nofun) fun comma y y' hy _ => ?_
    obtain rfl := hy.eq_of_none
    refine .bind hy (.list fun u hu => ?_) fun _ _ _ hz _ => .pure hz rfl
    exact inStep_tokens h (.none u) (by omega) (.type true)

theorem inStep_enclosedType (h : PhrasesInStep n inner inner') (hp : Beside ends t t') (ht : 2 * t.weight ≤ n)
    (plus : Bool) : InStep ends inside (fun _ => 0) (enclosedType inner plus) (enclosedType inner' plus) t t' := by
  refine .rest ?_
  split
  · rename_i content rest
    obtain ⟨u', rfl, -⟩ := hp.cons_left nofun
    have hcontent : Stream.weight content < Stream.weight (.group .paren content :: rest) := by
      simp only [Stream.weight, Tree.allWeight, Tree.weight]
      omega
    refine .ite ?_ ?_
    · refine .bind hp (.group hp .paren fun c hc => ?_) fun first v v' hv _ => ?_
      · exact inStep_traitBound h (.none c) (by omega)
      · exact .bind hv (inStep_addedBounds h hv (by omega)) fun _ _ _ hw _ => .pure hw rfl
    · refine .bind hp (.skip hp (by simp)) fun _ v v' hv _ => ?_
      refine .bind hv (.between hv .paren (inStep_enclosedTypes h (by omega))) fun found w w' hw _ => ?_
      refine .ite ?_ (.pure hw rfl)
      exact .bind hw (inStep_addedBounds h hw (by omega)) fun _ _ _ hx _ => .pure hx rfl
  · exact .missing _ _

theorem inStep_elementType (h : PhrasesInStep n inner inner') (ht : 2 * (t.weight + 1) ≤ n) :
    InStep .none false (fun _ => 0) (elementType inner) (elementType inner') t t := by
  have hp := Beside.none t
  refine .bind hp (inStep_tokens h hp ht (.type true)) fun element u u' hu _ => ?_
  refine .bind hu (.atOperator hu ";" nofun) fun found v v' hv _ => .ite ?_ (.pure hv rfl)
  refine .bind hv (.operator hv ";" nofun) fun semicolon w w' hw _ => ?_
  exact .bind hw (inStep_tokens h hw (by omega) .value) fun _ _ _ hx _ => .pure hx rfl

theorem inStep_pointerType (h : PhrasesInStep n inner inner') (hp : Beside ends t t') (ht : 2 * t.weight ≤ n) :
    InStep ends inside (fun _ => 0) (pointerType inner) (pointerType inner') t t' := by
  refine .bind hp (.operator hp "*" nofun) fun star u u' hu _ => ?_
  refine .bind hu (.atWord hu "const") fun const v v' hv _ => ?_
  refine .bind hv (.atWord hv "mut") fun mutable w w' hw _ => .ite ?_ (.missing _ _)
  refine .bind hw (.anyWord hw) fun kind x x' hx _ => ?_
  exact .bind hx (inStep_tokens h hx (by omega) (.type false)) fun _ _ _ hy _ => .pure hy rfl

theorem inStep_referenceType (h : PhrasesInStep n inner inner') (hp : Beside ends t t') (ht : 2 * t.weight ≤ n) :
    InStep ends inside (fun _ => 0) (referenceType inner) (referenceType inner') t t' := by
  refine .bind hp (.operator hp "&" nofun) fun mark u u' hu _ => ?_
  refine .bind hu (.atLifetime hu) fun found v v' hv _ => ?_
  extract_lets join join'
  have hjoin : ∀ life w w', Beside ends w w' → w.weight ≤ v.weight →
      InStep ends inside (fun _ => 0) (join life) (join' life) w w' := by
    intro life w w' hw hle
    refine .bind hw (.keyword? hw "mut") fun mutability x x' hx _ => ?_
    exact .bind hx (inStep_tokens h hx (by omega) (.type false)) fun _ _ _ hy _ => .pure hy rfl
  refine .ite ?_ (hjoin _ _ _ hv (Nat.le_refl _))
  exact .bind hv (.lifetime hv) fun life w w' hw _ => hjoin _ _ _ hw (by omega)

theorem inStep_objectType (h : PhrasesInStep n inner inner') (hp : Beside ends t t') (ht : 2 * t.weight ≤ n)
    (plus : Bool) : InStep ends inside (fun _ => 0) (objectType inner plus) (objectType inner' plus) t t' := by
  refine .bind hp (.keyword hp "dyn") fun word u u' hu _ => ?_
  refine .bind hu (.operator? hu "*" nofun nofun) fun star v v' hv _ => ?_
  refine .bind hv (inStep_bounds h hv (by omega) plus) fun bs w w' hw _ => .ite (.fail _ _) (.pure hw rfl)

theorem inStep_hiddenType (h : PhrasesInStep n inner inner') (hp : Beside ends t t') (ht : 2 * t.weight ≤ n)
    (plus : Bool) : InStep ends inside (fun _ => 0) (hiddenType inner plus) (hiddenType inner' plus) t t' := by
  refine .bind hp (.keyword hp "impl") fun word u u' hu _ => ?_
  refine .bind hu (inStep_bounds h hu (by omega) plus) fun bs w w' hw _ => .ite (.fail _ _) (.pure hw rfl)

theorem startsPath_eq (hp : Beside ends t t') : startsPath t' = startsPath t := by
  have hcolons := hp.startsWith_eq "::" nofun
  have hangle := hp.startsWith_eq "<" nofun
  rcases hp.cases_head with ⟨x, u, u', rfl, rfl, -⟩ | ⟨rfl | ⟨_, _, rfl⟩, rfl | ⟨_, _, rfl⟩⟩
  all_goals
    unfold startsPath
    split <;> simp_all

theorem startsFunction_eq (hp : Beside ends t t') : startsFunction t' = startsFunction t := by
  rw [startsFunction, startsFunction, hp.startsWithWord_eq "fn", hp.startsWithWord_eq "unsafe",
    hp.startsWithWord_eq "extern"]

theorem inStep_quantifiedType (h : PhrasesInStep n inner inner') (hp : Beside ends t t') (ht : 2 * t.weight ≤ n)
    (plus : Bool) : InStep ends inside (fun _ => 0) (quantifiedType inner plus) (quantifiedType inner' plus) t t' := by
  refine .bind hp (inStep_quantifier h hp ht) fun quantified u u' hu _ => .rest ?_
  split
  · obtain ⟨v', rfl, -⟩ := hu.cons_left nofun
    refine .ite ?_ (.ite ?_ (.missing _ _))
    · exact .bind hu (inStep_functionType h hu (by omega)) fun _ _ _ hv _ => .pure hv rfl
    · exact inStep_pathType h hu (by omega) plus quantified
  · exact .missing _ _

/-- Types are in step. -/
theorem inStep_type (h : PhrasesInStep n inner inner') (hp : Beside ends t t') (ht : 2 * t.weight < n)
    (plus : Bool) : InStep ends inside (fun _ => 0) (type inner plus) (type inner' plus) t t' := by
  refine .rest ?_
  simp only [hp.startsWithWord_eq, hp.startsWithGroup_eq, startsFunction_eq hp, startsPath_eq hp,
    hp.startsWith_eq "*" nofun, hp.startsWith_eq "&" nofun, hp.startsWith_eq "!" nofun, hp.startsWithLifetime_eq]
  refine .ite (inStep_quantifiedType h hp (by omega) plus) ?_
  refine .ite (inStep_enclosedType h hp (by omega) plus) ?_
  refine .ite (.bind hp (inStep_functionType h hp (by omega)) fun _ _ _ hu _ => .pure hu rfl) ?_
  refine .ite (inStep_pathType h hp (by omega) plus []) ?_
  refine .ite (inStep_objectType h hp (by omega) plus) ?_
  refine .ite ?_ ?_
  · refine .bind hp (.group hp .bracket fun c hc => ?_) fun _ _ _ hu _ => .pure hu rfl
    exact inStep_elementType h (by omega)
  refine .ite (.bind hp (inStep_pointerType h hp (by omega)) fun _ _ _ hu _ => .pure hu rfl) ?_
  refine .ite (.bind hp (inStep_referenceType h hp (by omega)) fun _ _ _ hu _ => .pure hu rfl) ?_
  refine .ite (.bind hp (.operator hp "!" nofun) fun _ _ _ hu _ => .pure hu rfl) ?_
  refine .ite (inStep_hiddenType h hp (by omega) plus) ?_
  refine .ite (.bind hp (.anyWord hp) fun _ _ _ hu _ => .pure hu rfl) ?_
  refine .ite ?_ (.missing _ _)
  exact .bind hp (inStep_bounds h hp ht true) fun bs u u' hu _ => .ite (.fail _ _) (.pure hu rfl)

end SpecForest.Outline.Grammar

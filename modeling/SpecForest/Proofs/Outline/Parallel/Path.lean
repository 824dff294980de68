import SpecForest.Proofs.Outline.Parallel

/-!
# Paths side by side

The readers of paths are in step, given readers for the phrases inside that are in step on lighter streams.
-/

namespace SpecForest.Outline

/-- Types and values begin with other phrases that begin where they do. -/
def Goal.rank : Goal → Nat
  | .type _ | .value => 1
  | .bound | .operand | .operation _ _ => 0

/-- Two readers for phrases are in step on streams that are light enough. -/
def PhrasesInStep (n : Nat) (inner inner' : PhraseReader) : Prop :=
  ∀ (ends : Ends) (inside : Bool) (goal : Goal) (t t' : Stream), Beside ends t t' → 2 * t.weight + goal.rank < n →
    InStep ends inside (fun _ => 0) (inner goal) (inner' goal) t t'

namespace Grammar
open Reader

section

variable {n : Nat} {inner inner' : PhraseReader} {ends : Ends} {inside : Bool} {t t' : Stream}

/-- A phrase that begins behind a token. -/
theorem inStep_phrase (h : PhrasesInStep n inner inner') (hp : Beside ends t t') (ht : 2 * (t.weight + 1) ≤ n)
    (goal : Goal) : InStep ends inside (fun _ => 0) (inner goal) (inner' goal) t t' := by
  refine h ends inside goal t t' hp ?_
  have : goal.rank ≤ 1 := by cases goal <;> simp [Goal.rank]
  omega

theorem inStep_tokens (h : PhrasesInStep n inner inner') (hp : Beside ends t t') (ht : 2 * (t.weight + 1) ≤ n)
    (goal : Goal) : InStep ends inside (fun _ => 0) (inner.tokens goal) (inner'.tokens goal) t t' :=
  .bind hp (inStep_phrase h hp ht goal) fun _ _ _ hu _ => .pure hu rfl

theorem constant?_eq (hp : Beside ends t t') : constant? t' = constant? t := by
  rcases hp.cases_head with ⟨x, u, u', rfl, rfl, hu⟩ | ⟨rfl | ⟨_, _, rfl⟩, rfl | ⟨_, _, rfl⟩⟩
  · rcases hu.cases_head with ⟨y, v, v', rfl, rfl, -⟩ | ⟨rfl | ⟨_, _, rfl⟩, rfl | ⟨_, _, rfl⟩⟩
    all_goals
      unfold constant?
      split <;> simp_all
  all_goals rfl

theorem length_of_constant? {s tokens : Stream} (h : constant? s = some tokens) : tokens.length ≤ s.length := by
  unfold constant? at h
  split at h
  · cases h; simp
  · cases h; simp
  · cases h; simp
  · split at h
    · cases h; simp
    · cases h
  · cases h

theorem inStep_statements (h : PhrasesInStep n inner inner') (ht : 2 * (t.weight + 1) ≤ n) :
    InStep .none false (fun _ => 0) (statements inner) (statements inner') t t := by
  refine .rounds (.none t) [] fun before u u' hu hw => ?_
  refine .bind hu (.atEnd hu) fun atEnd v v' hv hw' => .ite (.pure hv rfl) ?_
  refine .bind hv (.atOperator hv ";" nofun) fun found w w' hw _ => .ite ?_ ?_
  · exact .bind hw (.operator hw ";" nofun) fun _ _ _ hx _ => .pure hx rfl
  · refine .bind hw (inStep_tokens h hw (by omega) .value) fun one x x' hx _ => ?_
    refine .bind hx (.atEnd hx) fun atEnd y y' hy _ => .ite (.pure hy rfl) ?_
    refine .bind hy (.atOperator hy ";" nofun) fun found z z' hz _ => .ite ?_ (.fail _ _)
    exact .bind hz (.operator hz ";" nofun) fun _ _ _ hx _ => .pure hx rfl

theorem inStep_block (h : PhrasesInStep n inner inner') (hp : Beside ends t t') (ht : 2 * t.weight ≤ n) :
    InStep ends inside (fun _ => 1) (block inner) (block inner') t t' :=
  .group hp .brace fun content hc => inStep_statements h (by omega)

theorem inStep_constantArgument? (h : PhrasesInStep n inner inner') (hp : Beside ends t t') (ht : 2 * t.weight ≤ n) :
    InStep ends inside (fun _ => 0) (constantArgument? inner) (constantArgument? inner') t t' := by
  refine .rest ?_
  rw [constant?_eq hp]
  cases hconstant : constant? t with
  | some tokens =>
    have hlength := length_of_constant? hconstant
    exact .bind hp (.skip hp hlength) fun _ _ _ hu _ => .pure hu (Nat.zero_sub _)
  | none =>
    refine .bind hp (.atGroup hp .brace) fun found u u' hu _ => .ite ?_ (.pure hu rfl)
    exact .bind hu (inStep_block h hu (by omega)) fun _ _ _ hv _ => .pure hv rfl

/-! ## Arguments in angle brackets -/

theorem inStep_argumentBounds (h : PhrasesInStep n inner inner') (hp : Beside ends t t') (ht : 2 * (t.weight + 1) ≤ n) :
    InStep ends true (fun _ => 0) (argumentBounds inner) (argumentBounds inner') t t' := by
  refine .rounds hp [] fun before u u' hu hw => ?_
  refine .bind hu (.atComma hu) fun comma v v' hv _ => ?_
  refine .bind hv (.atOperator hv ">" nofun) fun closing w w' hw _ => .ite (.pure hw rfl) ?_
  refine .bind hw (inStep_tokens h hw (by omega) .bound) fun one x x' hx _ => ?_
  refine .bind hx (.atOperator hx "+" nofun) fun plus y y' hy _ => .ite ?_ (.pure hy rfl)
  exact .bind hy (.operator hy "+" nofun) fun _ _ _ hz _ => .pure hz rfl

/-- Whether a lifetime comes next that is no bound. -/
theorem startsLifetimeArgument_eq (hp : Beside ends t t') :
    (t'.startsWithLifetime && !(t'.behind 2).startsWith "+") =
      (t.startsWithLifetime && !(t.behind 2).startsWith "+") := by
  refine and_eq_and hp.startsWithLifetime_eq fun hstarts => ?_
  rw [(hp.lifetime.2 hstarts).startsWith_eq "+" nofun]

theorem inStep_argument (h : PhrasesInStep n inner inner') (hp : Beside ends t t') (ht : 2 * (t.weight + 1) ≤ n) :
    InStep ends true (fun _ => 0) (argument inner) (argument inner') t t' := by
  refine .rest ?_
  rw [startsLifetimeArgument_eq hp]
  refine .ite (.bind hp (.lifetime hp) fun _ _ _ hu _ => .pure hu rfl) ?_
  refine .bind hp (inStep_constantArgument? h hp (by omega)) fun constant u u' hu _ => ?_
  cases constant with
  | some constant => exact .pure hu rfl
  | none =>
    refine .bind hu (inStep_phrase h hu (by omega) (.type true)) fun type v v' hv _ => .ite ?_ (.pure hv rfl)
    refine .bind hv (.atOperator hv "=" nofun) fun equals w w' hw _ => .ite ?_ ?_
    · refine .bind hw (.operator hw "=" nofun) fun equals x x' hx _ => ?_
      refine .bind hx (inStep_constantArgument? h hx (by omega)) fun constant y y' hy _ => ?_
      cases constant with
      | some constant => exact .pure hy rfl
      | none => exact .bind hy (inStep_tokens h hy (by omega) (.type true)) fun _ _ _ hz _ => .pure hz rfl
    · refine .bind hw (.atOperator hw ":" nofun) fun colon x x' hx _ => .ite ?_ (.pure hx rfl)
      refine .bind hx (.operator hx ":" nofun) fun colon y y' hy _ => ?_
      exact .bind hy (inStep_argumentBounds h hy (by omega)) fun _ _ _ hz _ => .pure hz rfl

theorem inStep_angleArguments (h : PhrasesInStep n inner inner') (hp : Beside ends t t') (ht : 2 * t.weight ≤ n) :
    InStep ends inside (fun _ => 1) (angleArguments inner) (angleArguments inner') t t' := by
  refine .bind hp (.operator hp "<" nofun) fun opening u u' hu hw => ?_
  refine .closing hu (.rounds hu [] fun before v v' hv _ => ?_) fun args v v' hv _ => ?_
  · refine .bind hv (.atOperator hv ">" nofun) fun closing w w' hw _ => .ite (.pure hw rfl) ?_
    refine .bind hw (inStep_argument h hw (by omega)) fun one x x' hx _ => ?_
    refine .bind hx (.atOperator hx ">" nofun) fun closing y y' hy _ => .ite (.pure hy rfl) ?_
    exact .bind hy (.operator hy "," nofun) fun _ _ _ hz _ => .pure hz rfl
  · exact .bind hv (.operator hv ">" nofun) fun _ _ _ hw _ => .pure hw rfl

/-! ## Paths -/

theorem startsArguments_eq (hp : Beside ends t t') (place : PathPlace) :
    startsArguments place t' = startsArguments place t := by
  rw [startsArguments, startsArguments, hp.startsWith_eq "<" nofun, hp.startsWith_eq "<=" nofun]
  congr 1
  rw [Bool.and_assoc, Bool.and_assoc]
  refine and_eq_and (hp.startsWith_eq "::" nofun) fun hstarts => ?_
  have hbehind := hp.behind_colons hstarts
  rw [hbehind.startsWith_eq "<" nofun, hbehind.startsWith_eq "<=" nofun]

/-- The names that have no arguments are told by their words. -/
theorem segment_eq (inner : PhraseReader) (place : PathPlace) : segment inner place = (do
    let s ← rest
    if s.startsWithWord "super" || s.startsWithWord "self" || s.startsWithWord "crate" || s.startsWithWord "try" then
      return (← anyWord, false)
    let first ← if s.startsWithWord "Self" then anyWord else name
    if startsArguments place (← rest) then
      let colons ← operator? "::"
      return (first ++ colons ++ (← angleArguments inner), true)
    return (first, false)) := by
  unfold segment
  congr 1
  funext s
  split
  · simp [Stream.startsWithWord]
  · simp [Stream.startsWithWord]
  · simp [Stream.startsWithWord]
  · simp [Stream.startsWithWord]
  · refine (if_neg ?_).symm
    unfold Stream.startsWithWord
    split <;> simp_all

theorem inStep_segment (h : PhrasesInStep n inner inner') (hp : Beside ends t t') (ht : 2 * t.weight ≤ n)
    (place : PathPlace) : InStep ends inside (fun _ => 1) (segment inner place) (segment inner' place) t t' := by
  rw [segment_eq, segment_eq]
  refine .rest ?_
  rw [hp.startsWithWord_eq "super", hp.startsWithWord_eq "self", hp.startsWithWord_eq "crate",
    hp.startsWithWord_eq "try", hp.startsWithWord_eq "Self"]
  refine .ite (.bind hp (.anyWord hp) fun _ _ _ hu _ => .pure hu rfl) ?_
  extract_lets join join'
  have hjoin : ∀ first u u', Beside ends u u' → u.weight ≤ t.weight →
      InStep ends inside (fun _ => 0) (join first) (join' first) u u' := by
    intro first u u' hu hw
    refine .rest ?_
    rw [startsArguments_eq hu]
    refine .ite ?_ (.pure hu rfl)
    refine .bind hu (.operator? hu "::" nofun nofun) fun colons v v' hv _ => ?_
    exact .bind hv (inStep_angleArguments h hv (by omega)) fun _ _ _ hw _ => .pure hw rfl
  refine .ite ?_ ?_
  · exact .bind hp (.anyWord hp) fun first u u' hu _ => hjoin first u u' hu (by omega)
  · exact .bind hp (.name hp) fun first u u' hu _ => hjoin first u u' hu (by omega)

/-- Whether another name follows a path. -/
theorem startsSegment_eq (hp : Beside ends t t') :
    (t'.startsWith "::" && !(t'.behind 2).startsWithGroup .paren) =
      (t.startsWith "::" && !(t.behind 2).startsWithGroup .paren) := by
  refine and_eq_and (hp.startsWith_eq "::" nofun) fun hstarts => ?_
  rw [(hp.behind_colons hstarts).startsWithGroup_eq]

theorem inStep_furtherSegments (h : PhrasesInStep n inner inner') (hp : Beside ends t t') (ht : 2 * t.weight ≤ n)
    (place : PathPlace) (p : Path) :
    InStep ends inside (fun _ => 0) (furtherSegments inner place p) (furtherSegments inner' place p) t t' := by
  refine .rounds hp p fun p u u' hu hw => .rest ?_
  rw [startsSegment_eq hu]
  refine .ite ?_ (.pure hu rfl)
  refine .bind hu (.operator hu "::" nofun) fun colons v v' hv _ => ?_
  exact .bind hv (inStep_segment h hv (by omega) place) fun _ _ _ hw _ => .pure hw rfl

theorem inStep_plainPath (h : PhrasesInStep n inner inner') (hp : Beside ends t t') (ht : 2 * t.weight ≤ n)
    (place : PathPlace) : InStep ends inside (fun _ => 1) (plainPath inner place) (plainPath inner' place) t t' := by
  refine .bind hp (.operator? hp "::" nofun nofun) fun root u u' hu _ => ?_
  refine .bind hu (inStep_segment h hu (by omega) place) fun found v v' hv _ => ?_
  exact inStep_furtherSegments h hv (by omega) place _

theorem inStep_qualifiedPath (h : PhrasesInStep n inner inner') (hp : Beside ends t t') (ht : 2 * t.weight ≤ n)
    (place : PathPlace) :
    InStep ends inside (fun _ => 1) (qualifiedPath inner place) (qualifiedPath inner' place) t t' := by
  refine .bind hp (.operator hp "<" nofun) fun opening u u' hu _ => ?_
  refine .bind hu (inStep_tokens h hu (by omega) (.type true)) fun self v v' hv _ => ?_
  refine .bind hv (.atWord hv "as") fun found w w' hw _ => ?_
  extract_lets join join'
  have hjoin : ∀ via x x', Beside ends x x' → x.weight ≤ w.weight →
      InStep ends inside (fun _ => 0) (join via) (join' via) x x' := by
    intro via x x' hx hle
    refine .bind hx (.operator hx ">" nofun) fun closing y y' hy _ => ?_
    refine .bind hy (.operator hy "::" nofun) fun colons z z' hz _ => ?_
    refine .bind hz (inStep_segment h hz (by omega) place) fun first a a' ha _ => ?_
    refine .rounds ha _ fun p b b' hb _ => ?_
    refine .bind hb (.atOperator hb "::" nofun) fun found c c' hc _ => .ite ?_ (.pure hc rfl)
    refine .bind hc (.operator hc "::" nofun) fun colons d d' hd _ => ?_
    exact .bind hd (inStep_segment h hd (by omega) place) fun _ _ _ he _ => .pure he rfl
  refine .ite ?_ (hjoin _ _ _ hw (Nat.le_refl _))
  refine .bind hw (.keyword hw "as") fun word x x' hx _ => ?_
  refine .bind hx (inStep_plainPath h hx (by omega) .type) fun via y y' hy _ => ?_
  exact hjoin _ _ _ hy (by omega)

theorem inStep_anyPath (h : PhrasesInStep n inner inner') (hp : Beside ends t t') (ht : 2 * t.weight ≤ n)
    (place : PathPlace) : InStep ends inside (fun _ => 1) (anyPath inner place) (anyPath inner' place) t t' := by
  refine .bind hp (.atOperator hp "<" nofun) fun found u u' hu _ => .ite ?_ ?_
  · exact inStep_qualifiedPath h hu (by omega) place
  · exact inStep_plainPath h hu (by omega) place

theorem Path.isCalledLoudly_eq (hp : Beside ends t t') (p : Path) : p.isCalledLoudly t' = p.isCalledLoudly t := by
  rw [Path.isCalledLoudly, Path.isCalledLoudly, hp.startsWith_eq "!" nofun, hp.startsWith_eq "!=" nofun]

end

end Grammar

end SpecForest.Outline

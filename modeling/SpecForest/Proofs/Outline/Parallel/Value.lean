import Mathlib.Data.List.Find
import SpecForest.Proofs.Outline.Parallel.Type

/-!
# Values side by side

The readers of values are in step, given readers for the phrases inside that are in step on lighter streams.
-/

namespace SpecForest.Outline.Grammar
open Reader

variable {n : Nat} {inner inner' : PhraseReader} {ends : Ends} {inside : Bool} {t t' : Stream}

/-! ## Attributes -/

theorem inStep_attributeName : InStep .none false (fun _ => 0) attributeName attributeName t t := by
  have hp := Beside.none t
  refine .bind hp (.operator? hp "::" nofun nofun) fun root u u' hu _ => ?_
  refine .bind hu (.rounds hu [] fun before v v' hv _ => ?_) fun _ _ _ hv _ => .pure hv rfl
  obtain rfl := hv.eq_of_none
  refine .rest ?_
  split
  · refine .ite ?_ (.ite (.fail _ _) (.missing _ _))
    refine .bind hv (.anyWord hv) fun one w w' hw _ => ?_
    refine .bind hw (.atOperator hw "::" nofun) fun found x x' hx _ => .ite ?_ (.pure hx rfl)
    exact .bind hx (.operator hx "::" nofun) fun _ _ _ hy _ => .pure hy rfl
  · exact .ite (.missing _ _) (.missing _ _)

theorem startsWithAssignment_eq (hp : Beside ends t t') : t'.startsWithAssignment = t.startsWithAssignment := by
  rw [Stream.startsWithAssignment, Stream.startsWithAssignment, hp.startsWith_eq "=" nofun, hp.startsWith_eq "=>" nofun]

theorem inStep_attributeContent (h : PhrasesInStep n inner inner') (ht : 2 * (t.weight + 1) ≤ n) :
    InStep .none false (fun _ => 0) (attributeContent inner) (attributeContent inner') t t := by
  have hp := Beside.none t
  refine .bind hp inStep_attributeName fun path u u' hu _ => .rest ?_
  obtain rfl := hu.eq_of_none
  split
  · exact .bind hu (.brackets hu) fun _ _ _ hv _ => .pure hv rfl
  · refine .ite ?_ (.pure hu rfl)
    refine .bind hu (.operator hu "=" nofun) fun equals v v' hv _ => ?_
    exact .bind hv (inStep_tokens h hv (by omega) .value) fun _ _ _ hw _ => .pure hw rfl

theorem inStep_attributes (h : PhrasesInStep n inner inner') (hp : Beside ends t t') (ht : 2 * t.weight ≤ n) :
    InStep ends inside (fun _ => 0) (attributes inner) (attributes inner') t t' := by
  refine .rounds hp [] fun before u u' hu _ => ?_
  refine .bind hu (.atOperator hu "#" nofun) fun found v v' hv _ => .ite ?_ (.pure hv rfl)
  refine .bind hv (.operator hv "#" nofun) fun mark w w' hw _ => ?_
  refine .bind hw (.group hw .bracket fun c hc => ?_) fun _ _ _ hx _ => .pure hx rfl
  exact inStep_attributeContent h (by omega)

/-! ## Fields and methods -/

theorem inStep_member (hp : Beside ends t t') : InStep ends inside (fun _ => 0) member member t t' := by
  refine .rest ?_
  split
  · obtain ⟨u', rfl, -⟩ := hp.cons_left nofun
    exact .ite (InStep.token hp rfl _).zero (.missing _ _)
  · rename_i source rest
    obtain ⟨u', rfl, -⟩ := hp.cons_left nofun
    dsimp only
    rcases Number.ofSource? source with _ | ⟨value, suffixed⟩ | _
    · exact .missing _ _
    · exact .bind hp (.take (n := 1) hp _ (by simp)) fun _ _ _ hu _ => .pure hu rfl
    · exact .missing _ _
  · rename_i source rest
    obtain ⟨u', rfl, hu⟩ := hp.cons_left (by simp)
    obtain ⟨v', rfl, -⟩ := hu.cons_left nofun
    simp only
    rcases Number.ofSource? source with _ | ⟨value, suffixed⟩ | _
    · exact .missing _ _
    · exact .bind hp (.take (n := 2) hp _ (by simp)) fun _ _ _ hu _ => .pure hu rfl
    · exact .missing _ _
  · exact .missing _ _

/-- The number at the start of a stream, and whether a minus sign stands before it. -/
def number? : Stream → Option (Bool × String)
  | .literal source :: _ => some (false, source)
  | .punct '-' _ :: .literal source :: _ => some (true, source)
  | _ => none

theorem number?_eq (hp : Beside ends t t') : number? t' = number? t := by
  rcases hp.cases_head with ⟨x, u, u', rfl, rfl, hu⟩ | ⟨rfl | ⟨_, _, rfl⟩, rfl | ⟨_, _, rfl⟩⟩
  · rcases hu.cases_head with ⟨y, v, v', rfl, rfl, -⟩ | ⟨rfl | ⟨_, _, rfl⟩, rfl | ⟨_, _, rfl⟩⟩
    all_goals
      unfold number?
      split <;> simp_all
  all_goals rfl

theorem length_of_number? {s : Stream} {signed : Bool} {source : String} (h : number? s = some (signed, source)) :
    (if signed then 2 else 1) ≤ s.length := by
  unfold number? at h
  split at h
  · cases h; simp
  · cases h; simp
  · cases h

theorem fieldRun?_eq : fieldRun? = (do
    match number? (← rest) with
    | some (signed, source) =>
      match Number.ofSource? source with
      | some .fractional =>
        return some (← Reader.take fun s => (fieldRun signed source).map (·, s.drop (if signed then 2 else 1)))
      | _ => return none
    | none => return none) := by
  unfold fieldRun?
  congr 1
  funext s
  split
  · rfl
  · rfl
  · have hnone : number? s = none := by
      unfold number?
      split <;> simp_all
    rw [hnone]

theorem inStep_fieldRun? (hp : Beside ends t t') : InStep ends inside (fun _ => 0) fieldRun? fieldRun? t t' := by
  rw [fieldRun?_eq]
  refine .rest ?_
  rw [number?_eq hp]
  cases hnumber : number? t with
  | none => exact .pure hp rfl
  | some found =>
    obtain ⟨signed, source⟩ := found
    dsimp only
    split
    · exact .bind hp (.take hp _ (length_of_number? hnumber)) fun _ _ _ hu _ => .pure hu (Nat.zero_sub _)
    · exact .pure hp rfl

theorem inStep_selection (h : PhrasesInStep n inner inner') (hp : Beside ends t t') (ht : 2 * t.weight ≤ n)
    (point : Stream) :
    InStep ends inside (fun _ => 0) (selection inner point) (selection inner' point) t t' := by
  refine .bind hp (.atWord hp "await") fun found u u' hu _ => .ite ?_ ?_
  · exact .bind hu (.anyWord hu) fun _ _ _ hv _ => .pure hv rfl
  · refine .bind hu (inStep_member hu) fun found v v' hv _ => ?_
    refine .bind hv (.atOperator hv "::" nofun) fun colons w w' hw _ => ?_
    extract_lets join join'
    have hjoin : ∀ args x x', Beside ends x x' → x.weight ≤ t.weight →
        InStep ends inside (fun _ => 0) (join args) (join' args) x x' := by
      intro args x x' hx hle
      refine .bind hx (.atGroup hx .paren) fun found y y' hy _ => .ite ?_ (.pure hy rfl)
      refine .bind hy (.group hy .paren fun c hc => .list fun u hu => ?_) fun _ _ _ hz _ => .pure hz rfl
      exact inStep_tokens h (.none u) (by omega) .value
    refine .ite ?_ (hjoin _ _ _ hw (by omega))
    refine .bind hw (.operator hw "::" nofun) fun colons x x' hx _ => ?_
    exact .bind hx (inStep_angleArguments h hx (by omega)) fun args y y' hy _ => hjoin _ _ _ hy (by omega)

theorem inStep_access (h : PhrasesInStep n inner inner') (hp : Beside ends t t') (ht : 2 * t.weight ≤ n) :
    InStep ends inside (fun _ => 1) (access inner) (access inner') t t' := by
  refine .bind hp (.operator hp "." nofun) fun point u u' hu _ => ?_
  refine .bind hu (inStep_fieldRun? hu) fun found v v' hv _ => ?_
  cases found with
  | some run => exact .ite (inStep_selection h hv (by omega) _) (.pure hv rfl)
  | none => exact inStep_selection h hv (by omega) point

theorem inStep_trailers (h : PhrasesInStep n inner inner') (hp : Beside ends t t') (ht : 2 * t.weight ≤ n)
    (first : Phrase) : InStep ends inside (fun _ => 0) (trailers inner first) (trailers inner' first) t t' := by
  refine .rounds hp first fun before u u' hu _ => .rest ?_
  rw [hu.startsWithGroup_eq .paren, hu.startsWithGroup_eq .bracket, hu.startsWith_eq "." nofun,
    hu.startsWith_eq ".." nofun, hu.startsWith_eq "?" nofun]
  extract_lets join
  have hnone : InStep ends inside (fun r => if r.2 then 1 else 0) (join none) (join none) u u' := .pure hu rfl
  have hsome : ∀ {m m' : Reader Stream}, InStep ends inside (fun _ => 1) m m' u u' →
      InStep ends inside (fun r => if r.2 then 1 else 0) (do join (some (← m))) (do join (some (← m'))) u u' :=
    fun hm => .bind hu hm fun tokens v v' hv _ => .pure hv rfl
  simp only [map_eq_pure_bind, bind_assoc, pure_bind]
  refine .ite (hsome (.group hu .paren fun c hc => .list fun x hx => ?_)) ?_
  · exact inStep_tokens h (.none x) (by omega) .value
  refine .ite (hsome (.group hu .bracket fun c hc => inStep_tokens h (.none c) (by omega) .value)) ?_
  refine .ite hnone (.ite (hsome (inStep_access h hu (by omega))) ?_)
  exact .ite (hsome (.operator hu "?" nofun)) hnone

/-! ## Ranges -/

theorem binaryOperator?_eq (hp : Beside ends t t') : t'.binaryOperator? = t.binaryOperator? := by
  have hcomma : ∀ op ∈ binaryOperators, ',' ∉ op.1.toList := by decide
  refine List.find?_congr fun op hop => ?_
  exact hp.startsWith_eq op.1 (hcomma op hop)

theorem precedence_eq (hp : Beside ends t t') : t'.precedence = t.precedence := by
  rw [Stream.precedence, Stream.precedence, binaryOperator?_eq hp, startsWithAssignment_eq hp,
    hp.startsWith_eq ".." nofun, hp.startsWithWord_eq "as"]

/-- A range ends before a comma as it does at the end of a stream. -/
theorem endsRange_of_ends {s : Stream} (h : EndsPhrase s) : endsRange s = true := by
  rcases h with rfl | ⟨spacing, rest, rfl⟩
  · rfl
  · cases spacing <;> rfl

theorem endsRange_eq (hp : Beside ends t t') : endsRange t' = endsRange t := by
  rcases hp.cases_head with ⟨x, u, u', rfl, rfl, -⟩ | ⟨ht, ht'⟩
  · have hplain : ∀ op ∈ rangeStops, op = "," ∨ ',' ∉ op.toList := by decide
    have hstops : rangeStops.any (Stream.startsWith (x :: u')) = rangeStops.any (Stream.startsWith (x :: u)) := by
      rw [Bool.eq_iff_iff, List.any_eq_true, List.any_eq_true]
      refine exists_congr fun op => and_congr_right fun hop => Bool.eq_iff_iff.mp ?_
      rcases hplain op hop with rfl | hcomma
      · cases x <;> rfl
      · exact hp.startsWith_eq op hcomma
    rw [endsRange, endsRange, hstops, hp.startsWith_eq "." nofun, hp.startsWith_eq ".." nofun,
      hp.startsWithWord_eq "as"]
    rfl
  · rw [endsRange_of_ends ht, endsRange_of_ends ht']

theorem inStep_rightOperand (h : PhrasesInStep n inner inner') (hp : Beside ends t t') (ht : 2 * (t.weight + 1) ≤ n)
    (before : Precedence) :
    InStep ends inside (fun _ => 0) (rightOperand inner before) (rightOperand inner' before) t t' := by
  refine .bind hp (inStep_phrase h hp ht .operand) fun first u u' hu _ => ?_
  refine .rounds hu first fun right v v' hv _ => .rest ?_
  rw [precedence_eq hv]
  exact .ite (.progress hv (inStep_phrase h hv (by omega) _)) (.pure hv rfl)

theorem inStep_rangeEnd (h : PhrasesInStep n inner inner') (hp : Beside ends t t') (ht : 2 * t.weight ≤ n) :
    InStep ends inside (fun _ => 1) (rangeEnd inner) (rangeEnd inner') t t' := by
  refine .rest ?_
  rw [hp.startsWith_eq "..=" nofun, hp.startsWith_eq "..." nofun]
  refine .ite ?_ (.ite (.missing _ _) ?_)
  · refine .bind hp (.operator hp "..=" nofun) fun points u u' hu _ => ?_
    exact .bind hu (inStep_rightOperand h hu (by omega) .range) fun _ _ _ hv _ => .pure hv rfl
  · refine .bind hp (.operator hp ".." nofun) fun points u u' hu _ => .rest ?_
    rw [endsRange_eq hu]
    refine .ite (.pure hu rfl) ?_
    exact .bind hu (inStep_rightOperand h hu (by omega) .range) fun _ _ _ hv _ => .pure hv rfl

/-! ## Operands -/

theorem inStep_values (h : PhrasesInStep n inner inner') (ht : 2 * (t.weight + 1) ≤ n) :
    InStep .none false (fun _ => 0) (enclosedValues inner) (enclosedValues inner') t t :=
  .list fun u hu => inStep_tokens h (.none u) (by omega) .value

theorem inStep_arrayValues (h : PhrasesInStep n inner inner') (ht : 2 * (t.weight + 1) ≤ n) :
    InStep .none false (fun _ => 0) (arrayValues inner) (arrayValues inner') t t := by
  have hp := Beside.none t
  refine .bind hp (.atEnd hp) fun atEnd u u' hu _ => .ite (.pure hu rfl) ?_
  refine .bind hu (inStep_tokens h hu (by omega) .value) fun first v v' hv _ => ?_
  refine .bind hv (.atEnd hv) fun atEnd w w' hw _ => .ite (.pure hw rfl) ?_
  obtain rfl := hw.eq_of_none
  refine .bind hw (.look hw rfl) fun found x x' hx _ => .ite ?_ ?_
  · refine .bind hx (.operator hx "," nofun) fun comma y y' hy _ => ?_
    obtain rfl := hy.eq_of_none
    exact .bind hy (inStep_values h (by omega)) fun _ _ _ hz _ => .pure hz rfl
  · refine .bind hx (.atOperator hx ";" nofun) fun found y y' hy _ => .ite ?_ (.missing _ _)
    refine .bind hy (.operator hy ";" nofun) fun semicolon z z' hz _ => ?_
    exact .bind hz (inStep_tokens h hz (by omega) .value) fun _ _ _ ha _ => .pure ha rfl

theorem inStep_fieldValue (h : PhrasesInStep n inner inner') (hp : Beside ends t t') (ht : 2 * (t.weight + 1) ≤ n) :
    InStep ends inside (fun _ => 0) (fieldValue inner) (fieldValue inner') t t' := by
  refine .bind hp (inStep_attributes h hp (by omega)) fun attrs u u' hu _ => ?_
  refine .bind hu (inStep_member hu) fun field v v' hv _ => ?_
  refine .bind hv (.atOperator hv ":" nofun) fun found w w' hw _ => .ite ?_ (.pure hw rfl)
  refine .bind hw (.operator hw ":" nofun) fun colon x x' hx _ => ?_
  exact .bind hx (inStep_tokens h hx (by omega) .value) fun _ _ _ hy _ => .pure hy rfl

theorem inStep_structureFields (h : PhrasesInStep n inner inner') (ht : 2 * (t.weight + 1) ≤ n) :
    InStep .none false (fun _ => 0) (structureFields inner) (structureFields inner') t t := by
  refine .rounds (.none t) [] fun before u u' hu _ => ?_
  refine .bind hu (.atEnd hu) fun atEnd v v' hv _ => .ite (.pure hv rfl) ?_
  refine .bind hv (.atOperator hv ".." nofun) fun found w w' hw _ => .ite ?_ ?_
  · refine .bind hw (.operator hw ".." nofun) fun points x x' hx _ => ?_
    refine .bind hx (.atEnd hx) fun atEnd y y' hy _ => .ite (.pure hy rfl) ?_
    exact .bind hy (inStep_tokens h hy (by omega) .value) fun _ _ _ hz _ => .pure hz rfl
  · refine .bind hw (inStep_fieldValue h hw (by omega)) fun one x x' hx _ => ?_
    refine .bind hx (.atEnd hx) fun atEnd y y' hy _ => .ite (.pure hy rfl) ?_
    exact .bind hy (.operator hy "," nofun) fun _ _ _ hz _ => .pure hz rfl

theorem inStep_pathValue (h : PhrasesInStep n inner inner') (hp : Beside ends t t') (ht : 2 * t.weight ≤ n) :
    InStep ends inside (fun _ => 0) (pathValue inner) (pathValue inner') t t' := by
  refine .bind hp (inStep_anyPath h hp ht .value) fun p u u' hu _ => .rest ?_
  rw [p.isCalledLoudly_eq hu]
  refine .ite ?_ ?_
  · refine .bind hu (.operator hu "!" nofun) fun mark v v' hv _ => ?_
    exact .bind hv (.brackets hv) fun _ _ _ hw _ => .pure hw rfl
  · refine .bind hu (.atGroup hu .brace) fun found v v' hv _ => .ite ?_ (.pure hv rfl)
    refine .bind hv (.group hv .brace fun c hc => ?_) fun _ _ _ hw _ => .pure hw rfl
    exact inStep_structureFields h (by omega)

theorem inStep_labelledBlock (h : PhrasesInStep n inner inner') (hp : Beside ends t t') (ht : 2 * t.weight ≤ n) :
    InStep ends inside (fun _ => 0) (labelledBlock inner) (labelledBlock inner') t t' := by
  refine .bind hp (.lifetime hp) fun label u u' hu _ => ?_
  refine .bind hu (.operator hu ":" nofun) fun colon v v' hv _ => ?_
  refine .bind hv (.atGroup hv .brace) fun found w w' hw _ => .ite ?_ (.missing _ _)
  exact .bind hw (inStep_block h hw (by omega)) fun _ _ _ hx _ => .pure hx rfl

/-! ## Blocks and jumps -/

/-- The words before a block are the same in both streams. -/
theorem take_blockWords_eq (hp : Beside ends t t') :
    (blockWords t', t'.take (blockWords t')) = (blockWords t, t.take (blockWords t)) := by
  refine hp.eq_of_forward (fun s => (blockWords s, s.take (blockWords s))) (0, []) fun ends t t' hp hne => ?_
  unfold blockWords at hne
  split at hne
  · obtain ⟨u', rfl, hu⟩ := hp.cons_left nofun
    rfl
  · obtain ⟨u', rfl, hu⟩ := hp.cons_left nofun
    rfl
  · obtain ⟨u', rfl, hu⟩ := hp.cons_left nofun
    obtain ⟨v', rfl, hv⟩ := hu.cons_left nofun
    rfl
  · obtain ⟨u', rfl, hu⟩ := hp.cons_left nofun
    obtain ⟨v', rfl, hv⟩ := hu.cons_left nofun
    rfl
  · obtain ⟨u', rfl, hu⟩ := hp.cons_left nofun
    obtain ⟨v', rfl, hv⟩ := hu.cons_left nofun
    rfl
  · obtain ⟨u', rfl, hu⟩ := hp.cons_left nofun
    obtain ⟨v', rfl, hv⟩ := hu.cons_left nofun
    obtain ⟨w', rfl, hw⟩ := hv.cons_left nofun
    rfl
  · exact absurd rfl hne

theorem length_of_blockWords (s : Stream) : blockWords s ≤ s.length := by
  unfold blockWords
  split <;> simp

theorem startsValue_eq (hp : Beside ends t t') : startsValue t' = startsValue t := by
  rcases hp.cases_head with ⟨x | x | x | x, u, u', rfl, rfl, -⟩ | ⟨rfl | ⟨_, _, rfl⟩, rfl | ⟨_, _, rfl⟩⟩
  · rfl
  all_goals
    have hop := hp.startsWith_eq
    simp only [startsValue, hop "!" nofun, hop "!=" nofun, hop "-" nofun, hop "-=" nofun, hop "->" nofun, hop "*" nofun,
      hop "*=" nofun, hop "|" nofun, hop "|=" nofun, hop "&" nofun, hop "&=" nofun, hop ".." nofun, hop "<" nofun,
      hop "<=" nofun, hop "<<=" nofun, hop "::" nofun, hop "#" nofun, hp.startsWithLifetime_eq]

theorem inStep_jump (h : PhrasesInStep n inner inner') (hp : Beside ends t t') (ht : 2 * t.weight ≤ n)
    (label value : Bool) :
    InStep ends inside (fun _ => 0) (jump inner label value) (jump inner' label value) t t' := by
  refine .bind hp (.anyWord hp) fun word u u' hu _ => ?_
  refine .bind hu (.atLifetime hu) fun found v v' hv _ => ?_
  extract_lets join join'
  have hjoin : ∀ target w w', Beside ends w w' → w.weight ≤ v.weight →
      InStep ends inside (fun _ => 0) (join target) (join' target) w w' := by
    intro target w w' hw hle
    refine .rest ?_
    rw [startsValue_eq hw]
    refine .ite ?_ (.pure hw rfl)
    exact .bind hw (inStep_tokens h hw (by omega) .value) fun _ _ _ hx _ => .pure hx rfl
  refine .ite ?_ (hjoin _ _ _ hv (Nat.le_refl _))
  exact .bind hv (.lifetime hv) fun target w w' hw _ => hjoin _ _ _ hw (by omega)

/-! ## Operands of all kinds -/

theorem startsPathValue_eq (hp : Beside ends t t') : startsPathValue t' = startsPathValue t := by
  rw [startsPathValue, startsPathValue, startsPath_eq hp]
  congr 1
  refine and_eq_and (hp.startsWithWord_eq "try") fun hstarts => ?_
  have hbehind := hp.behind_word hstarts
  rw [hbehind.startsWith_eq "!" nofun, hbehind.startsWith_eq "::" nofun]

/-- Takes an operand that begins with a word or a mark. -/
def plainAtom (inner : PhraseReader) (s : Stream) : Reader Phrase := do
  if s.startsWithWord "true" || s.startsWithWord "false" || s.startsWithWord "_" then return { tokens := ← anyWord }
  else if 0 < blockWords s then
    skip (blockWords s)
    return { tokens := s.take (blockWords s) ++ (← block inner) }
  else if s.startsWithWord "return" then return { tokens := ← jump inner false true }
  else if s.startsWithWord "break" then return { tokens := ← jump inner true true }
  else if s.startsWithWord "continue" then return { tokens := ← jump inner true false }
  else if startsPathValue s then return { tokens := ← pathValue inner }
  else if s.startsWith ".." then return { tokens := ← rangeEnd inner, form := .range }
  else if s.startsWithLifetime then return { tokens := ← labelledBlock inner }
  else missing .expression

theorem inStep_plainAtom (h : PhrasesInStep n inner inner') (hp : Beside ends t t') (ht : 2 * t.weight ≤ n) :
    InStep ends inside (fun _ => 0) (plainAtom inner t) (plainAtom inner' t') t t' := by
  obtain ⟨hcount, hwords⟩ := Prod.mk.inj (take_blockWords_eq hp)
  rw [plainAtom, plainAtom, hwords, hcount, hp.startsWithWord_eq "true", hp.startsWithWord_eq "false",
    hp.startsWithWord_eq "_", hp.startsWithWord_eq "return", hp.startsWithWord_eq "break",
    hp.startsWithWord_eq "continue", startsPathValue_eq hp, hp.startsWith_eq ".." nofun, hp.startsWithLifetime_eq]
  refine .ite (.bind hp (.anyWord hp) fun _ _ _ hu _ => .pure hu rfl) (.ite ?_ ?_)
  · refine .bind hp (.skip hp (length_of_blockWords t)) fun _ u u' hu _ => ?_
    refine .bind hu (inStep_block h hu (by omega)) fun _ _ _ hv _ => .pure hv ?_
    omega
  refine .ite (.bind hp (inStep_jump h hp ht false true) fun _ _ _ hu _ => .pure hu rfl) ?_
  refine .ite (.bind hp (inStep_jump h hp ht true true) fun _ _ _ hu _ => .pure hu rfl) ?_
  refine .ite (.bind hp (inStep_jump h hp ht true false) fun _ _ _ hu _ => .pure hu rfl) ?_
  refine .ite (.bind hp (inStep_pathValue h hp ht) fun _ _ _ hu _ => .pure hu rfl) ?_
  refine .ite (.bind hp (inStep_rangeEnd h hp ht) fun _ _ _ hu _ => .pure hu rfl) ?_
  exact .ite (.bind hp (inStep_labelledBlock h hp ht) fun _ _ _ hu _ => .pure hu rfl) (.missing _ _)

theorem inStep_atom (h : PhrasesInStep n inner inner') (hp : Beside ends t t') (ht : 2 * t.weight ≤ n) :
    InStep ends inside (fun _ => 0) (atom inner) (atom inner') t t' := by
  refine .rest ?_
  rcases hp.cases_head with ⟨x, u, u', rfl, rfl, -⟩ | ⟨rfl | ⟨_, _, rfl⟩, rfl | ⟨_, _, rfl⟩⟩
  · match x with
    | .literal source => exact (InStep.token hp rfl _).zero
    | .group .paren content =>
      exact .bind hp (.group hp .paren fun c hc => inStep_values h (by omega)) fun _ _ _ hu _ => .pure hu rfl
    | .group .bracket content =>
      exact .bind hp (.group hp .bracket fun c hc => inStep_arrayValues h (by omega)) fun _ _ _ hu _ => .pure hu rfl
    | .group .brace content => exact .bind hp (inStep_block h hp ht) fun _ _ _ hu _ => .pure hu rfl
    | .word w => exact inStep_plainAtom h hp ht
    | .punct c spacing => exact inStep_plainAtom h hp ht
  all_goals exact inStep_plainAtom h hp ht

/-- Whether a bare reference is made. -/
theorem startsBare_eq (hp : Beside ends t t') :
    (t'.startsWithWord "raw" && ((t'.behind 1).startsWithWord "mut" || (t'.behind 1).startsWithWord "const")) =
      (t.startsWithWord "raw" && ((t.behind 1).startsWithWord "mut" || (t.behind 1).startsWithWord "const")) := by
  refine and_eq_and (hp.startsWithWord_eq "raw") fun hstarts => ?_
  have hbehind := hp.behind_word hstarts
  rw [hbehind.startsWithWord_eq "mut", hbehind.startsWithWord_eq "const"]

theorem inStep_reference (hp : Beside ends t t') : InStep ends inside (fun _ => 1) reference reference t t' := by
  refine .bind hp (.operator hp "&" nofun) fun mark u u' hu _ => .rest ?_
  rw [startsBare_eq hu]
  extract_lets bare join
  have hjoin : ∀ word v v', Beside ends v v' → InStep ends inside (fun _ => 0) (join word) (join word) v v' := by
    intro word v v' hv
    refine .ite ?_ ?_
    · exact .bind hv (.anyWord hv) fun _ _ _ hw _ => .pure hw rfl
    · exact .bind hv (.keyword? hv "mut") fun _ _ _ hw _ => .pure hw rfl
  refine .ite ?_ (hjoin _ _ _ hu)
  exact .bind hu (.anyWord hu) fun word v v' hv _ => hjoin word v v' hv

theorem inStep_operand (h : PhrasesInStep n inner inner') (hp : Beside ends t t') (ht : 2 * t.weight ≤ n) :
    InStep ends inside (fun _ => 0) (operand inner) (operand inner') t t' := by
  refine .bind hp (inStep_attributes h hp ht) fun attrs u u' hu _ => .rest ?_
  rw [hu.startsWith_eq "&" nofun, hu.startsWith_eq "*" nofun, hu.startsWith_eq "!" nofun, hu.startsWith_eq "-" nofun]
  refine .ite ?_ (.ite ?_ (.ite ?_ (.ite ?_ ?_)))
  · refine .bind hu (inStep_reference hu) fun mark v v' hv _ => ?_
    exact .bind hv (inStep_tokens h hv (by omega) .operand) fun _ _ _ hw _ => .pure hw rfl
  · refine .bind hu (.operator hu "*" nofun) fun mark v v' hv _ => ?_
    exact .bind hv (inStep_tokens h hv (by omega) .operand) fun _ _ _ hw _ => .pure hw rfl
  · refine .bind hu (.operator hu "!" nofun) fun mark v v' hv _ => ?_
    exact .bind hv (inStep_tokens h hv (by omega) .operand) fun _ _ _ hw _ => .pure hw rfl
  · refine .bind hu (.operator hu "-" nofun) fun mark v v' hv _ => ?_
    exact .bind hv (inStep_tokens h hv (by omega) .operand) fun _ _ _ hw _ => .pure hw rfl
  · refine .bind hu (inStep_atom h hu (by omega)) fun found v v' hv _ => ?_
    exact .bind hv (inStep_trailers h hv (by omega) found) fun _ _ _ hw _ => .pure hw rfl

/-! ## Operations -/

theorem castFollower?_eq (hp : Beside ends t t') : castFollower? t' = castFollower? t := by
  rcases hp.cases_head with ⟨x, u, u', rfl, rfl, hu⟩ | ⟨rfl | ⟨_, _, rfl⟩, rfl | ⟨_, _, rfl⟩⟩
  · match x with
    | .group .paren content => rfl
    | .group .bracket content => rfl
    | .group .brace content => rfl
    | .word w => rfl
    | .literal source => rfl
    | .punct c spacing =>
      unfold castFollower?
      dsimp only
      rw [hp.startsWith_eq "." nofun, hp.startsWith_eq ".." nofun, hp.startsWith_eq "?" nofun]
      -- what follows a point is told from the next two tokens
      rcases hu.cases_head with ⟨y, v, v', rfl, rfl, hv⟩ | ⟨rfl | ⟨_, _, rfl⟩, rfl | ⟨_, _, rfl⟩⟩
      · cases y with
        | word w =>
          have hgroup : Stream.startsWithGroup (Stream.behind (.punct c spacing :: .word w :: v') 2) .paren =
              Stream.startsWithGroup (Stream.behind (.punct c spacing :: .word w :: v) 2) .paren :=
            hv.startsWithGroup_eq .paren
          have hcolons : Stream.startsWith (Stream.behind (.punct c spacing :: .word w :: v') 2) "::" =
              Stream.startsWith (Stream.behind (.punct c spacing :: .word w :: v) 2) "::" :=
            hv.startsWith_eq "::" nofun
          rw [hgroup, hcolons]
          rfl
        | literal source => rfl
        | punct d spacing => rfl
        | group d content => rfl
      all_goals rfl
  all_goals rfl

theorem inStep_cast (h : PhrasesInStep n inner inner') (hp : Beside ends t t') (ht : 2 * t.weight ≤ n) (left : Phrase) :
    InStep ends inside (fun _ => 1) (cast inner left) (cast inner' left) t t' := by
  refine .bind hp (.keyword hp "as") fun word u u' hu _ => ?_
  refine .bind hu (inStep_tokens h hu (by omega) (.type false)) fun type v v' hv _ => .rest ?_
  rw [castFollower?_eq hv]
  cases castFollower? v with
  | some what => exact .fail _ _
  | none => exact .pure hv rfl

theorem inStep_operation (h : PhrasesInStep n inner inner') (hp : Beside ends t t') (ht : 2 * t.weight ≤ n)
    (base : Precedence) (first : Phrase) :
    InStep ends inside (fun _ => 0) (operation inner base first) (operation inner' base first) t t' := by
  refine .rounds hp first fun left u u' hu _ => .rest (.ite (.pure hu rfl) ?_)
  rw [binaryOperator?_eq hu, startsWithAssignment_eq hu, hu.startsWith_eq ".." nofun, hu.startsWithWord_eq "as"]
  cases hop : u.binaryOperator? with
  | some found =>
    obtain ⟨op, p⟩ := found
    refine .ite (.pure hu rfl) (.ite (.fail _ _) ?_)
    have hne : ∀ op ∈ binaryOperators, op.1 ≠ "" := by decide
    refine .bind hu (.operator hu op (hne _ (List.mem_of_find?_eq_some hop))) fun mark v v' hv _ => ?_
    exact .bind hv (inStep_rightOperand h hv (by omega) p) fun _ _ _ hw _ => .pure hw rfl
  | none =>
    refine .ite ?_ (.ite ?_ (.ite ?_ (.pure hu rfl)))
    · refine .bind hu (.operator hu "=" nofun) fun mark v v' hv _ => ?_
      exact .bind hv (inStep_rightOperand h hv (by omega) .assign) fun _ _ _ hw _ => .pure hw rfl
    · exact .bind hu (inStep_rangeEnd h hu (by omega)) fun _ _ _ hv _ => .pure hv rfl
    · exact .bind hu (inStep_cast h hu (by omega) left) fun _ _ _ hv _ => .pure hv rfl

/-- Values are in step. -/
theorem inStep_value (h : PhrasesInStep n inner inner') (hp : Beside ends t t') (ht : 2 * t.weight < n) :
    InStep ends inside (fun _ => 0) (value inner) (value inner') t t' := by
  refine .bind hp (h ends inside .operand t t' hp ht) fun first u u' hu _ => ?_
  exact h ends inside _ u u' hu (by simp only [Goal.rank]; omega)

end SpecForest.Outline.Grammar

import Mathlib.Data.List.Basic
import SpecForest.Outline.Plain

/-!
# Readers side by side

Where a phrase ends is decided without looking further: behind it stands nothing or a comma, and it does not matter
which of these, nor what follows the comma. Here two readers are compared that run on streams with the same tokens up
to such an end and with different tokens behind it. They are *in step* if the second reads what the first does, as
long as the first does not take tokens of the end. Both what a reader does and how deep phrases may be nested inside
it can differ between the two, so the same comparison says that a reader needs no more depth than its stream has
tokens.

The rules of this module follow the ways in which readers are put together.
-/

namespace SpecForest.Outline

/-! ## Streams side by side -/

/-- What stands in each of two streams behind the same tokens. -/
structure Ends where
  left : Stream
  right : Stream
  left_ends : EndsPhrase left
  right_ends : EndsPhrase right

/-- Nothing stands behind either stream. -/
def Ends.none : Ends := ⟨[], [], .inl rfl, .inl rfl⟩

/-- Two streams that are read side by side. They have the same tokens before their ends; or the first has been read into
its end, and nothing is compared any more. -/
inductive Beside (ends : Ends) : Stream → Stream → Prop
  | before (s : Stream) : Beside ends (s ++ ends.left) (s ++ ends.right)
  | past {t : Stream} (h : t.length < ends.left.length) : Beside ends t t

theorem Beside.none (t : Stream) : Beside .none t t := by
  have h := @Beside.before .none t
  rwa [Ends.none, List.append_nil] at h

theorem Beside.eq_of_none {t t' : Stream} (h : Beside .none t t') : t = t' := by
  cases h with
  | before s => rfl
  | past h => rfl

/-- A stream that is a part of the first one has a stream beside it. -/
theorem Beside.exists_of_suffix {ends : Ends} {t t' u : Stream} (h : Beside ends t t') (hu : u <:+ t) :
    ∃ u', Beside ends u u' := by
  cases h with
  | past h => exact ⟨u, .past (Nat.lt_of_le_of_lt hu.length_le h)⟩
  | before s =>
    by_cases hlt : u.length < ends.left.length
    · exact ⟨u, .past hlt⟩
    · obtain ⟨s', hs'⟩ := List.suffix_of_suffix_length_le (List.suffix_append s ends.left) hu (Nat.le_of_not_lt hlt)
      exact ⟨s' ++ ends.right, hs' ▸ .before s'⟩

theorem Beside.right_eq {ends : Ends} {t' s : Stream} (h : Beside ends (s ++ ends.left) t') :
    t' = s ++ ends.right := by
  generalize ht : s ++ ends.left = t at h
  cases h with
  | past h =>
    rw [← ht, List.length_append] at h
    omega
  | before s' => rw [List.append_cancel_right ht]

/-- Streams side by side begin with the same token, or both are at their ends. -/
theorem Beside.cases_head {ends : Ends} {t t' : Stream} (h : Beside ends t t') :
    (∃ x u u', t = x :: u ∧ t' = x :: u' ∧ Beside ends u u') ∨ (EndsPhrase t ∧ EndsPhrase t') := by
  cases h with
  | before s =>
    cases s with
    | nil => exact .inr ⟨ends.left_ends, ends.right_ends⟩
    | cons x s => exact .inl ⟨x, s ++ ends.left, s ++ ends.right, rfl, rfl, .before s⟩
  | past h =>
    cases t with
    | nil => exact .inr ⟨.inl rfl, .inl rfl⟩
    | cons x u => exact .inl ⟨x, u, u, rfl, rfl, .past (Nat.lt_of_succ_lt h)⟩

/-- A stream begins with a token other than a comma if the one beside it does. -/
theorem Beside.cons_left {ends : Ends} {x : Tree} {u t' : Stream} (h : Beside ends (x :: u) t')
    (hx : ∀ spacing, x ≠ .punct ',' spacing) : ∃ u', t' = x :: u' ∧ Beside ends u u' := by
  rcases h.cases_head with ⟨y, v, v', hy, rfl, hv⟩ | ⟨hnil | ⟨spacing, rest, hcomma⟩, -⟩
  · obtain ⟨rfl, rfl⟩ := List.cons.inj hy
    exact ⟨v', rfl, hv⟩
  · cases hnil
  · exact absurd (List.cons.inj hcomma).1 (hx spacing)

/-- The two streams the other way round. -/
def Ends.symm (ends : Ends) : Ends := ⟨ends.right, ends.left, ends.right_ends, ends.left_ends⟩

/-- What is told from the tokens before the ends is told of both streams, if telling it of the first tells it of the
second. -/
theorem Beside.eq_of_forward {α : Type} (f : Stream → α) (default : α)
    (hforward : ∀ ends t t', Beside ends t t' → f t ≠ default → f t = f t') {ends : Ends} {t t' : Stream}
    (h : Beside ends t t') : f t' = f t := by
  by_cases ht : f t = default
  · cases h with
    | past => rfl
    | before s =>
      by_contra hne
      exact hne (hforward ends.symm _ _ (.before s) (ht ▸ hne))
  · exact (hforward ends t t' h ht).symm

/-! ## What readers look at -/

section

variable {ends : Ends} {t t' : Stream}

theorem startsWithOperator_singleton (c : Char) (x : Tree) (s : Stream) :
    startsWithOperator [c] (x :: s) = x.isPunct c := by
  cases x <;> rfl

theorem startsWithOperator_cons (c d : Char) (cs : List Char) (x : Tree) (s : Stream) :
    startsWithOperator (c :: d :: cs) (x :: s) = (x.isPunct c && x.isJoint && startsWithOperator (d :: cs) s) := by
  cases x with
  | punct e spacing => cases spacing <;> simp [startsWithOperator, Tree.isPunct, Tree.isJoint]
  | word w => rfl
  | literal w => rfl
  | group e inner => rfl

theorem startsWithOperator_of_ends {s : Stream} (h : EndsPhrase s) {c : Char} {cs : List Char} (hc : ',' ∉ c :: cs) :
    startsWithOperator (c :: cs) s = false := by
  have hne : c ≠ ',' := by
    rintro rfl
    exact hc List.mem_cons_self
  rcases h with rfl | ⟨spacing, rest, rfl⟩
  · cases cs <;> rfl
  · cases cs <;> cases spacing <;> simp [startsWithOperator, hne]

theorem Beside.startsWithOperator_eq (h : Beside ends t t') {cs : List Char} (hcs : ',' ∉ cs) :
    startsWithOperator cs t' = startsWithOperator cs t := by
  induction cs generalizing t t' with
  | nil => simp [startsWithOperator]
  | cons c cs ih =>
    rcases h.cases_head with ⟨x, u, u', rfl, rfl, hu⟩ | ⟨ht, ht'⟩
    · cases cs with
      | nil => rw [startsWithOperator_singleton, startsWithOperator_singleton]
      | cons d cs =>
        rw [startsWithOperator_cons, startsWithOperator_cons, ih hu (List.not_mem_of_not_mem_cons hcs)]
    · rw [startsWithOperator_of_ends ht hcs, startsWithOperator_of_ends ht' hcs]

/-- Whether an operator comes next can be told from the tokens before the ends, unless it is a comma. -/
theorem Beside.startsWith_eq (h : Beside ends t t') (op : String) (hop : ',' ∉ op.toList) :
    t'.startsWith op = t.startsWith op := h.startsWithOperator_eq hop

/-- Behind an operator other than a comma the streams go on side by side. -/
theorem Beside.drop_of_startsWithOperator (h : Beside ends t t') {cs : List Char} (hcs : ',' ∉ cs)
    (hstarts : startsWithOperator cs t = true) : Beside ends (t.drop cs.length) (t'.drop cs.length) := by
  induction cs generalizing t t' with
  | nil => exact h
  | cons c cs ih =>
    rcases h.cases_head with ⟨x, u, u', rfl, rfl, hu⟩ | ⟨ht, -⟩
    · rw [List.length_cons, List.drop_succ_cons, List.drop_succ_cons]
      cases cs with
      | nil => exact hu
      | cons d cs =>
        rw [startsWithOperator_cons, Bool.and_eq_true] at hstarts
        exact ih hu (List.not_mem_of_not_mem_cons hcs) hstarts.2
    · rw [startsWithOperator_of_ends ht hcs] at hstarts
      cases hstarts

theorem Beside.behind_colons (h : Beside ends t t') (hstarts : t.startsWith "::" = true) :
    Beside ends (t.behind 2) (t'.behind 2) := h.drop_of_startsWithOperator (by decide) hstarts

theorem Beside.startsWithWord_eq (h : Beside ends t t') (word : String) :
    t'.startsWithWord word = t.startsWithWord word := by
  rcases h.cases_head with ⟨x, u, u', rfl, rfl, hu⟩ | ⟨rfl | ⟨_, _, rfl⟩, rfl | ⟨_, _, rfl⟩⟩
  · cases x <;> rfl
  all_goals rfl

theorem Beside.behind_word (h : Beside ends t t') {word : String} (hstarts : t.startsWithWord word = true) :
    Beside ends (t.behind 1) (t'.behind 1) := by
  rcases h.cases_head with ⟨x, u, u', rfl, rfl, hu⟩ | ⟨rfl | ⟨_, _, rfl⟩, -⟩
  · exact hu
  · cases hstarts
  · cases hstarts

theorem Beside.startsWithGroup_eq (h : Beside ends t t') (d : Delimiter) :
    t'.startsWithGroup d = t.startsWithGroup d := by
  rcases h.cases_head with ⟨x, u, u', rfl, rfl, hu⟩ | ⟨rfl | ⟨_, _, rfl⟩, rfl | ⟨_, _, rfl⟩⟩
  · cases x <;> rfl
  all_goals rfl

/-- Whether a lifetime comes next can be told from the tokens before the ends, and behind it the streams go on side by
side. -/
theorem Beside.lifetime (h : Beside ends t t') : t'.startsWithLifetime = t.startsWithLifetime ∧
    (t.startsWithLifetime = true → Beside ends (t.behind 2) (t'.behind 2)) := by
  rcases h.cases_head with ⟨x, u, u', rfl, rfl, hu⟩ | ⟨rfl | ⟨_, _, rfl⟩, rfl | ⟨_, _, rfl⟩⟩
  · rcases hu.cases_head with ⟨y, v, v', rfl, rfl, hv⟩ | ⟨rfl | ⟨_, _, rfl⟩, rfl | ⟨_, _, rfl⟩⟩
    · refine ⟨?_, fun _ => hv⟩
      unfold Stream.startsWithLifetime
      split <;> simp_all
    all_goals
      unfold Stream.startsWithLifetime
      split <;> simp_all
  all_goals exact ⟨rfl, nofun⟩

theorem Beside.startsWithLifetime_eq (h : Beside ends t t') : t'.startsWithLifetime = t.startsWithLifetime :=
  h.lifetime.1

theorem and_eq_and {a a' b b' : Bool} (ha : a' = a) (hb : a = true → b' = b) : (a' && b') = (a && b) := by
  subst ha
  cases a' with
  | false => rfl
  | true => exact hb rfl

end

/-! ## Sizes -/

theorem length_le_weight (s : Stream) : s.length ≤ s.weight := by
  induction s with
  | nil => exact Nat.zero_le _
  | cons x s ih =>
    have := weight_pos x
    simp only [List.length_cons, Stream.weight, Tree.allWeight] at ih ⊢
    omega

/-- Each token that is taken off a stream makes it lighter. -/
theorem weight_le_of_suffix {u t : Stream} (h : u <:+ t) {k : Nat} (hk : u.length + k ≤ t.length) :
    u.weight + k ≤ t.weight := by
  obtain ⟨s, rfl⟩ := h
  have := length_le_weight s
  rw [List.length_append] at hk
  rw [weight_append]
  omega

/-! ## Readers in step -/

/-- On streams side by side, a reader does what another one does. What it leaves is a part of its stream that has at
least `least` tokens fewer, and unless it has taken tokens of the end, the other one has the same result and leaves the
stream beside. With `inside` this is asked only if something is left before the end. -/
def InStep {α : Type} (ends : Ends) (inside : Bool) (least : α → Nat) (m m' : Reader α) (t t' : Stream) : Prop :=
  ∀ leftover a u leftover', m ⟨t, leftover⟩ = .ok (a, ⟨u, leftover'⟩) →
    u <:+ t ∧ u.length + least a ≤ t.length ∧
      ∀ s, u = s ++ ends.left → (inside = true → s ≠ []) →
        m' ⟨t', leftover⟩ = .ok (a, ⟨s ++ ends.right, leftover'⟩)

namespace InStep

variable {α β : Type} {ends : Ends} {inside : Bool} {least : α → Nat} {t t' : Stream}

theorem right {m m' : Reader α} (h : InStep ends false least m m' t t') {leftover leftover' : Option Delimiter} {a : α}
    (s : Stream) (hm : m ⟨t, leftover⟩ = .ok (a, ⟨s ++ ends.left, leftover'⟩)) :
    m' ⟨t', leftover⟩ = .ok (a, ⟨s ++ ends.right, leftover'⟩) :=
  (h _ _ _ _ hm).2.2 s rfl nofun

theorem mono {least' : α → Nat} {m m' : Reader α} (h : InStep ends inside least m m' t t')
    (hle : ∀ a, least' a ≤ least a) : InStep ends inside least' m m' t t' := by
  intro leftover a u leftover' hm
  obtain ⟨hsuffix, hlength, hright⟩ := h leftover a u leftover' hm
  exact ⟨hsuffix, Nat.le_trans (Nat.add_le_add_left (hle a) _) hlength, hright⟩

/-- A reader that takes some tokens takes any number of tokens. -/
theorem zero {m m' : Reader α} (h : InStep ends inside least m m' t t') :
    InStep ends inside (fun _ => 0) m m' t t' := h.mono fun _ => Nat.zero_le _

/-- Inside the end of the first stream nothing is asked of the second. -/
theorem of_past {m m' m'' : Reader α} {t'' : Stream} (h : InStep ends inside least m m'' t t'')
    (hpast : t.length < ends.left.length) : InStep ends inside least m m' t t' := by
  intro leftover a u leftover' hm
  obtain ⟨hsuffix, hlength, -⟩ := h leftover a u leftover' hm
  refine ⟨hsuffix, hlength, fun s hs _ => absurd hsuffix.length_le ?_⟩
  rw [hs, List.length_append]
  omega

theorem fail (e : OutlineError) (m' : Reader α) : InStep ends inside least (Reader.fail e) m' t t' := nofun

theorem missing (what : Expected) (m' : Reader α) : InStep ends inside least (Reader.missing what) m' t t' := nofun

theorem pure (hp : Beside ends t t') {a : α} (h : least a = 0) :
    InStep ends inside least (Pure.pure a) (Pure.pure a) t t' := by
  rintro leftover _ _ _ ⟨⟩
  refine ⟨List.suffix_rfl, by rw [h]; exact Nat.le_refl _, ?_⟩
  rintro s rfl -
  rw [hp.right_eq]
  rfl

theorem ite {c : Prop} [Decidable c] {m m' k k' : Reader α} (hm : InStep ends inside least m m' t t')
    (hk : InStep ends inside least k k' t t') :
    InStep ends inside least (if c then m else k) (if c then m' else k') t t' := by
  by_cases h : c
  · rwa [if_pos h, if_pos h]
  · rwa [if_neg h, if_neg h]

/-- The first result of a sequence of two readers. -/
theorem exists_of_bind {m : Reader α} {f : α → Reader β} {r r' : Remainder} {b : β} (h : (m >>= f) r = .ok (b, r')) :
    ∃ a r₁, m r = .ok (a, r₁) ∧ f a r₁ = .ok (b, r') := by
  cases hm : m r with
  | error e => simp [bind, StateT.bind, Except.bind, hm] at h
  | ok found =>
    obtain ⟨a, r₁⟩ := found
    refine ⟨a, r₁, rfl, ?_⟩
    simpa [bind, StateT.bind, Except.bind, hm] using h

theorem bind_of {m : Reader α} {f : α → Reader β} {r r₁ : Remainder} {a : α} (h : m r = .ok (a, r₁)) :
    (m >>= f) r = f a r₁ := by
  simp [Bind.bind, StateT.bind, Except.bind, h]

/-- Readers that come one after the other. The first one may be compared in the inside only, if the second takes a
token behind it. -/
theorem bind_inside {m m' : Reader α} {f f' : α → Reader β} {first : α → Nat} {least : β → Nat} {inside' : Bool}
    (hp : Beside ends t t') (hm : InStep ends inside' first m m' t t')
    (hf : ∀ a u u', Beside ends u u' → u <:+ t → u.length + first a ≤ t.length →
      InStep ends inside (fun b => least b - first a) (f a) (f' a) u u' ∧
        (inside' = true → inside = true ∨ InStep ends inside (fun _ => 1) (f a) (f' a) u u')) :
    InStep ends inside least (m >>= f) (m' >>= f') t t' := by
  intro leftover b u leftover' hmf
  obtain ⟨a, ⟨u₁, leftover₁⟩, hma, hfb⟩ := exists_of_bind hmf
  obtain ⟨hsuffix₁, hlength₁, hright₁⟩ := hm _ _ _ _ hma
  obtain ⟨u₁', hp₁⟩ := hp.exists_of_suffix hsuffix₁
  obtain ⟨hstep, hcloses⟩ := hf a u₁ u₁' hp₁ hsuffix₁ hlength₁
  obtain ⟨hsuffix, hlength, hright⟩ := hstep _ _ _ _ hfb
  refine ⟨hsuffix.trans hsuffix₁, by dsimp only at hlength; omega, ?_⟩
  rintro s rfl hs
  -- what the first reader leaves ends in the same way
  obtain ⟨s₁, rfl⟩ : ends.left <:+ u₁ := (List.suffix_append s ends.left).trans hsuffix
  have hsuffix' : s <:+ s₁ := by
    obtain ⟨x, hx⟩ := hsuffix
    rw [← List.append_assoc] at hx
    exact ⟨x, List.append_cancel_right hx⟩
  have hs₁ : inside' = true → s₁ ≠ [] := by
    rintro hinside' rfl
    rcases hcloses hinside' with hinside | hone
    · exact hs hinside (List.suffix_nil.mp hsuffix')
    · have := (hone _ _ _ _ hfb).2.1
      simp only [List.length_append, List.nil_append] at this
      omega
  rw [bind_of (hright₁ s₁ rfl hs₁), ← hp₁.right_eq]
  exact hright s rfl hs

theorem bind {m m' : Reader α} {f f' : α → Reader β} {first : α → Nat} {least : β → Nat}
    (hp : Beside ends t t') (hm : InStep ends inside first m m' t t')
    (hf : ∀ a u u', Beside ends u u' → u.weight + first a ≤ t.weight →
      InStep ends inside (fun b => least b - first a) (f a) (f' a) u u') :
    InStep ends inside least (m >>= f) (m' >>= f') t t' :=
  bind_inside hp hm fun a u u' hu hsuffix hlength => ⟨hf a u u' hu (weight_le_of_suffix hsuffix hlength), .inl⟩

/-- The first of two readers may be compared in the inside only, because the second takes a token behind it. -/
theorem closing {m m' : Reader α} {f f' : α → Reader β} {first : α → Nat} (hp : Beside ends t t')
    (hm : InStep ends true first m m' t t')
    (hf : ∀ a u u', Beside ends u u' → u.weight + first a ≤ t.weight →
      InStep ends inside (fun _ => 1) (f a) (f' a) u u') :
    InStep ends inside (fun _ => 0) (m >>= f) (m' >>= f') t t' :=
  bind_inside hp hm fun a u u' hu hsuffix hlength =>
    have h := hf a u u' hu (weight_le_of_suffix hsuffix hlength)
    ⟨h.mono fun _ => by omega, fun _ => .inr h⟩

/-- A reader that looks at its stream. -/
theorem rest {f f' : Stream → Reader α} (h : InStep ends inside least (f t) (f' t') t t') :
    InStep ends inside least (Reader.rest >>= f) (Reader.rest >>= f') t t' := h

/-! ### Tokens -/

/-- A reader that takes a number of tokens off the front, as it can tell from these tokens alone. -/
theorem of_take {m m' : Reader α} (n : Nat) (hn : ∀ a, least a ≤ n)
    (h : ∀ leftover a r, m ⟨t, leftover⟩ = .ok (a, r) → n ≤ t.length ∧ r = ⟨t.drop n, leftover⟩ ∧
      ∀ s, t = s ++ ends.left → n ≤ s.length →
        m' ⟨s ++ ends.right, leftover⟩ = .ok (a, ⟨(s ++ ends.right).drop n, leftover⟩))
    (hp : Beside ends t t') : InStep ends inside least m m' t t' := by
  intro leftover a u leftover' hm
  obtain ⟨hlength, hr, hright⟩ := h leftover a _ hm
  cases hr
  refine ⟨List.drop_suffix n t, by have := hn a; rw [List.length_drop]; omega, ?_⟩
  intro s hs _
  obtain ⟨s₀, rfl⟩ : ends.left <:+ t := ⟨t.take n ++ s, by rw [List.append_assoc, ← hs, List.take_append_drop]⟩
  -- the end is left as it is, so the tokens stand before it
  have hle : n ≤ s₀.length := by
    have := congrArg List.length hs
    simp only [List.length_drop, List.length_append] at this
    simp only [List.length_append] at hlength
    omega
  rw [List.drop_append_of_le_length hle] at hs
  rw [hp.right_eq, hright s₀ rfl hle, List.drop_append_of_le_length hle, List.append_cancel_right hs]

theorem skip (hp : Beside ends t t') {n : Nat} (hn : n ≤ t.length) :
    InStep ends inside (fun _ => n) (Reader.skip n) (Reader.skip n) t t' := by
  refine .of_take n (fun _ => Nat.le_refl n) ?_ hp
  rintro leftover _ _ ⟨⟩
  exact ⟨hn, rfl, fun _ _ _ => rfl⟩

/-- A reader that tells something about its stream. -/
theorem look (hp : Beside ends t t') {f : Stream → α} (h : f t' = f t) :
    InStep ends inside (fun _ => 0) (do return f (← Reader.rest)) (do return f (← Reader.rest)) t t' := by
  refine .rest ?_
  rw [h]
  exact .pure hp rfl

theorem atOperator (hp : Beside ends t t') (op : String) (hop : ',' ∉ op.toList) :
    InStep ends inside (fun _ => 0) (Reader.atOperator op) (Reader.atOperator op) t t' :=
  look hp (hp.startsWith_eq op hop)

theorem atWord (hp : Beside ends t t') (word : String) :
    InStep ends inside (fun _ => 0) (Reader.atWord word) (Reader.atWord word) t t' :=
  look hp (hp.startsWithWord_eq word)

theorem atGroup (hp : Beside ends t t') (d : Delimiter) :
    InStep ends inside (fun _ => 0) (Reader.atGroup d) (Reader.atGroup d) t t' :=
  look hp (hp.startsWithGroup_eq d)

theorem atLifetime (hp : Beside ends t t') :
    InStep ends inside (fun _ => 0) Reader.atLifetime Reader.atLifetime t t' :=
  look hp hp.startsWithLifetime_eq

/-- Where nothing stands behind either stream, both end together. -/
theorem atEnd (hp : Beside .none t t') : InStep .none inside (fun _ => 0) Reader.atEnd Reader.atEnd t t' :=
  look hp (by rw [hp.eq_of_none])

/-- Whether a comma comes next can be told inside only. -/
theorem atComma (hp : Beside ends t t') :
    InStep ends true (fun _ => 0) (Reader.atOperator ",") (Reader.atOperator ",") t t' := by
  rintro leftover _ _ _ ⟨⟩
  refine ⟨List.suffix_rfl, Nat.le_refl _, ?_⟩
  rintro s rfl hs
  obtain ⟨x, s, rfl⟩ := List.exists_cons_of_ne_nil (hs rfl)
  rw [hp.right_eq]
  cases x <;> rfl

theorem startsWithOperator_append {cs : List Char} {s : Stream} (h : cs.length ≤ s.length) (back : Stream) :
    startsWithOperator cs (s ++ back) = startsWithOperator cs s := by
  induction cs generalizing s with
  | nil => simp [startsWithOperator]
  | cons c cs ih =>
    obtain ⟨x, s, rfl⟩ := List.exists_cons_of_length_pos (Nat.lt_of_lt_of_le (Nat.succ_pos _) h)
    cases cs with
    | nil => rw [List.cons_append, startsWithOperator_singleton, startsWithOperator_singleton]
    | cons d cs =>
      rw [List.cons_append, startsWithOperator_cons, startsWithOperator_cons, ih (Nat.le_of_succ_le_succ h)]

theorem length_le_of_startsWithOperator {cs : List Char} {s : Stream} (h : startsWithOperator cs s = true) :
    cs.length ≤ s.length := by
  induction cs generalizing s with
  | nil => exact Nat.zero_le _
  | cons c cs ih =>
    cases s with
    | nil => cases cs <;> cases h
    | cons x s =>
      cases cs with
      | nil => simp
      | cons d cs =>
        rw [startsWithOperator_cons, Bool.and_eq_true] at h
        exact Nat.succ_le_succ (ih h.2)

theorem operator (hp : Beside ends t t') (op : String) (hop : op ≠ "") :
    InStep ends inside (fun _ => 1) (Reader.operator op) (Reader.operator op) t t' := by
  have hpos : 0 < op.length := Nat.pos_of_ne_zero fun hzero => hop (String.length_eq_zero_iff.mp hzero)
  refine .of_take op.length (fun _ => hpos) ?_ hp
  intro leftover a r h
  by_cases hstarts : t.startsWith op = true
  · simp only [Reader.operator, Reader.take, Stream.takeOperator, hstarts, if_true] at h
    cases h
    refine ⟨length_le_of_startsWithOperator hstarts, rfl, ?_⟩
    rintro s rfl hle
    have heq : Stream.startsWith (s ++ ends.right) op = true := by
      rw [Stream.startsWith, startsWithOperator_append hle] at hstarts ⊢
      exact hstarts
    simp [Reader.operator, Reader.take, Stream.takeOperator, heq]
  · simp [Reader.operator, Reader.take, Stream.takeOperator, hstarts] at h

theorem operator? (hp : Beside ends t t') (op : String) (hop : ',' ∉ op.toList) (hne : op ≠ "") :
    InStep ends inside (fun _ => 0) (Reader.operator? op) (Reader.operator? op) t t' := by
  refine .bind hp (.atOperator hp op hop) fun found u u' hu _ => .ite ?_ (.pure hu rfl)
  exact (InStep.operator hu op hne).zero

/-- One token, whatever follows it. -/
theorem token (hp : Beside ends t t') {x : Tree} {u : Stream} (ht : t = x :: u) (a : α) :
    InStep ends inside (fun _ => 1) (do Reader.skip 1; return a) (do Reader.skip 1; return a) t t' :=
  .bind hp (.skip hp (by simp [ht])) fun _ _ _ hu _ => .pure hu rfl

theorem keyword (hp : Beside ends t t') (word : String) :
    InStep ends inside (fun _ => 1) (Reader.keyword word) (Reader.keyword word) t t' := by
  refine .rest ?_
  split
  · obtain ⟨u', rfl, -⟩ := hp.cons_left nofun
    exact .ite (.token hp rfl _) (.missing _ _)
  · exact .missing _ _

theorem keyword? (hp : Beside ends t t') (word : String) :
    InStep ends inside (fun _ => 0) (Reader.keyword? word) (Reader.keyword? word) t t' := by
  refine .bind hp (.atWord hp word) fun found u u' hu _ => .ite ?_ (.pure hu rfl)
  exact (InStep.keyword hu word).zero

theorem anyWord (hp : Beside ends t t') :
    InStep ends inside (fun _ => 1) Reader.anyWord Reader.anyWord t t' := by
  refine .rest ?_
  split
  · obtain ⟨u', rfl, -⟩ := hp.cons_left nofun
    exact .token hp rfl _
  · exact .missing _ _

theorem name (hp : Beside ends t t') : InStep ends inside (fun _ => 1) Reader.name Reader.name t t' := by
  refine .rest ?_
  split
  · obtain ⟨u', rfl, -⟩ := hp.cons_left nofun
    exact .ite (.token hp rfl _) (.fail _ _)
  · exact .missing _ _

theorem lifetime (hp : Beside ends t t') :
    InStep ends inside (fun _ => 1) Reader.lifetime Reader.lifetime t t' := by
  refine .rest ?_
  split
  · obtain ⟨u', rfl, hu⟩ := hp.cons_left (by simp)
    obtain ⟨v', rfl, -⟩ := hu.cons_left nofun
    exact .bind hp (.skip hp (by simp)) fun _ _ _ hv _ => .pure hv rfl
  · exact .missing _ _

theorem brackets (hp : Beside ends t t') :
    InStep ends inside (fun _ => 1) Reader.brackets Reader.brackets t t' := by
  refine .rest ?_
  split
  · obtain ⟨u', rfl, -⟩ := hp.cons_left nofun
    exact .token hp rfl _
  · exact .missing _ _

/-- A result that the first tokens of a stream have or have not. -/
theorem take (hp : Beside ends t t') (found : Except OutlineError α) {n : Nat} (hn : n ≤ t.length) :
    InStep ends inside (fun _ => n) (Reader.take fun s => found.map (·, s.drop n))
      (Reader.take fun s => found.map (·, s.drop n)) t t' := by
  cases found with
  | error e => exact nofun
  | ok a =>
    refine .of_take n (fun _ => Nat.le_refl n) ?_ hp
    rintro leftover _ _ ⟨⟩
    exact ⟨hn, rfl, fun _ _ _ => rfl⟩

/-- What is read between brackets does not depend on what stands behind them. -/
theorem between (hp : Beside ends t t') (d : Delimiter) {inner : Stream} {read read' : Reader α}
    (h : InStep .none false (fun _ => 0) read read' inner inner) :
    InStep ends inside (fun _ => 0) (Reader.between d inner read) (Reader.between d inner read') t t' := by
  intro leftover a u leftover' hr
  rw [Reader.between] at hr
  split at hr
  · cases hr
  · rename_i found hfound
    cases hr
    obtain ⟨-, -, hright⟩ := h _ _ _ _ hfound
    refine ⟨List.suffix_rfl, Nat.le_refl _, ?_⟩
    rintro s rfl -
    have hfound' := hright found.stream (List.append_nil _).symm nofun
    rw [hp.right_eq, Reader.between, hfound', Ends.none, List.append_nil]

theorem group (hp : Beside ends t t') (d : Delimiter) {read read' : Reader Stream}
    (h : ∀ inner, inner.weight < t.weight → InStep .none false (fun _ => 0) read read' inner inner) :
    InStep ends inside (fun _ => 1) (Reader.group d read) (Reader.group d read') t t' := by
  refine .rest ?_
  split
  · rename_i e inner rest
    obtain ⟨u', rfl, -⟩ := hp.cons_left nofun
    refine .ite ?_ (.missing _ _)
    refine .bind hp (.skip hp (by simp)) fun _ v v' hv _ => ?_
    refine .bind hv (.between hv d (h inner ?_)) fun _ _ _ hw _ => .pure hw rfl
    simp only [Stream.weight, Tree.allWeight, Tree.weight]
    omega
  · exact .missing _ _

/-! ### Rounds -/

theorem repeated {step step' : α → Reader (α × Bool)} (hp : Beside ends t t') (n : Nat) (hn : t.length < n) (n' : Nat)
    (hn' : t.length ≤ n' + ends.left.length) (a : α)
    (hstep : ∀ a u u', Beside ends u u' → u.weight ≤ t.weight →
      InStep ends inside (fun r => if r.2 then 1 else 0) (step a) (step' a) u u') :
    InStep ends inside (fun _ => 0) (Reader.repeated step n a) (Reader.repeated step' (n' + 1) a) t t' := by
  induction n generalizing t t' n' a with
  | zero => omega
  | succ n ih =>
    refine .bind_inside hp (hstep a t t' hp (Nat.le_refl _)) fun r u u' hu hsuffix hlength => ⟨?_, .inl⟩
    obtain ⟨b, again⟩ := r
    cases again with
    | false => exact .pure hu rfl
    | true =>
      simp only [if_true] at hlength
      have hstep' : ∀ a v v', Beside ends v v' → v.weight ≤ u.weight → _ := fun a v v' hv hle =>
        hstep a v v' hv (Nat.le_trans hle (weight_le_of_suffix hsuffix (k := 0) (by omega)))
      cases n' with
      | zero =>
        -- the end has been reached, so that the second reader needs no further round
        exact (ih hu (by omega) 0 (by omega) b hstep').of_past (by omega)
      | succ n' => exact ih hu (by omega) n' (by omega) b hstep'

theorem rounds {step step' : α → Reader (α × Bool)} (hp : Beside ends t t') (a : α)
    (hstep : ∀ a u u', Beside ends u u' → u.weight ≤ t.weight →
      InStep ends inside (fun r => if r.2 then 1 else 0) (step a) (step' a) u u') :
    InStep ends inside (fun _ => 0) (Reader.rounds step a) (Reader.rounds step' a) t t' := by
  refine .rest ?_
  refine .repeated hp _ (Nat.lt_succ_self _) _ ?_ a hstep
  cases hp with
  | before s => simp only [List.length_append]; omega
  | past h => omega

/-- A reader that tells whether it has taken a token, so that another round can follow. -/
theorem progress {m m' : Reader α} (hp : Beside ends t t') (hm : InStep ends inside (fun _ => 0) m m' t t') :
    InStep ends inside (fun r => if r.2 then 1 else 0)
      (do let a ← m; return (a, decide ((← Reader.rest).length < t.length)))
      (do let a ← m'; return (a, decide ((← Reader.rest).length < t'.length))) t t' := by
  intro leftover r u leftover' h
  obtain ⟨a, ⟨u, leftover⟩, ha, hr⟩ := exists_of_bind h
  cases hr
  obtain ⟨hsuffix, hlength, hright⟩ := hm _ _ _ _ ha
  refine ⟨hsuffix, ?_, ?_⟩
  · by_cases hlt : u.length < t.length
    · rw [decide_eq_true hlt]
      exact hlt
    · rw [decide_eq_false hlt]
      exact hlength
  · rintro s rfl hs
    obtain ⟨s₀, rfl⟩ : ends.left <:+ t := (List.suffix_append s ends.left).trans hsuffix
    rw [bind_of (hright s rfl hs), hp.right_eq]
    have hiff : (s ++ ends.right).length < (s₀ ++ ends.right).length ↔
        (s ++ ends.left).length < (s₀ ++ ends.left).length := by
      simp only [List.length_append]
      omega
    rw [← decide_eq_decide.mpr hiff]
    rfl

/-- Elements with commas between them, up to the end of a stream. -/
theorem list {element element' : Reader Stream} {t : Stream}
    (h : ∀ u, u.weight ≤ t.weight → InStep .none false (fun _ => 0) element element' u u) :
    InStep .none false (fun _ => 0) (Reader.list element) (Reader.list element') t t := by
  refine .rounds (.none t) [] fun before u u' hu hw => ?_
  refine .bind hu (.atEnd hu) fun atEnd v v' hv hv' => .ite (.pure hv rfl) ?_
  obtain rfl := hv.eq_of_none
  refine .bind hv (h v (by omega)) fun one x x' hx _ => ?_
  refine .bind hx (.atEnd hx) fun atEnd y y' hy _ => .ite (.pure hy rfl) ?_
  exact .bind hy (.operator hy "," nofun) fun comma z z' hz _ => .pure hz rfl

end InStep

end SpecForest.Outline

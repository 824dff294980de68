import SpecForest.Outline.Meaning
import SpecForest.Proofs.Tree.Expansion

/-!
# What bindings do

Generated code reads the arguments of a row one by one, each at its index. If there are as many arguments as
parameters, this comes to reading both lists side by side: no argument is missing, and the first that does not
have the type of its parameter is the error.
-/

namespace SpecForest.Outline

/-! ## Arguments read at parameters -/

/-- Arguments read one by one at the types of parameters, if there are equally many and each has the type of
its parameter. -/
def readParams? (host : Host) : List Param → Arguments → Option (Environment host.Datum)
  | [], [] => some []
  | p :: params, v :: args =>
    (host.read? p.type v).bind fun datum =>
      (readParams? host params args).map ((p.name, datum) :: ·)
  | _, _ => none

/-- The first argument that does not have the type of its parameter. -/
structure Misread (host : Host) (params : List Param) (args : Arguments) (index : Nat) (p : Param)
    (v : Value) : Prop where
  param : params[index]? = some p
  value : args[index]? = some v
  unread : host.read? p.type v = none
  before : ∀ (j : Nat) (q : Param) (w : Value), j < index → params[j]? = some q → args[j]? = some w →
    host.read? q.type w ≠ none

section

variable {host : Host}

theorem length_of_readParams? {params : List Param} {args : Arguments} {env : Environment host.Datum}
    (h : readParams? host params args = some env) : args.length = params.length := by
  fun_induction readParams? host params args generalizing env with
  | case1 => rfl
  | case2 p params v args ih =>
    obtain ⟨datum, -, hrest⟩ := Option.bind_eq_some_iff.mp h
    obtain ⟨inner, hinner, -⟩ := Option.map_eq_some_iff.mp hrest
    rw [List.length_cons, List.length_cons, ih hinner]
  | case3 params args _ _ => cases h

theorem Misread.head {p : Param} {params : List Param} {v : Value} {args : Arguments}
    (h : host.read? p.type v = none) : Misread host (p :: params) (v :: args) 0 p v :=
  ⟨rfl, rfl, h, fun j _ _ hj => absurd hj (Nat.not_lt_zero j)⟩

theorem Misread.cons {p q : Param} {params : List Param} {v w : Value} {args : Arguments} {index : Nat}
    (h : host.read? q.type w ≠ none) (hrest : Misread host params args index p v) :
    Misread host (q :: params) (w :: args) (index + 1) p v := by
  refine ⟨hrest.param, hrest.value, hrest.unread, ?_⟩
  intro j q' w' hj hq hw
  cases j with
  | zero =>
    cases hq
    cases hw
    exact h
  | succ j => exact hrest.before j q' w' (by omega) hq hw

/-- As many arguments as parameters are bound as they are read, or the first one that cannot be read is the
error. No argument is missing. -/
theorem defineAll_zipIdx (host : Host) (table : StringLiteral) {params : List Param} (front : Arguments)
    {args : Arguments} (h : args.length = params.length) :
    let bindings : List Binding := (params.zipIdx front.length).map fun (p, i) => ⟨table, i, p⟩
    (∃ env, readParams? host params args = some env ∧ defineAll host (front ++ args) bindings = .ok env) ∨
      readParams? host params args = none ∧ ∃ index p v, Misread host params args index p v ∧
        defineAll host (front ++ args) bindings = .error (.mismatch ⟨table, front.length + index, p⟩ v) := by
  induction params generalizing front args with
  | nil =>
    obtain rfl := List.length_eq_zero_iff.mp h
    exact .inl ⟨[], rfl, rfl⟩
  | cons p params ih =>
    obtain ⟨v, args, rfl⟩ := List.exists_cons_of_length_eq_add_one h
    -- the argument at the next index is the next one, and the ones before it move to the front
    have hat : (front ++ v :: args)[front.length]? = some v := by simp
    have hlength : args.length = params.length := by simpa using h
    have hrest := ih (front ++ [v]) hlength
    simp only [List.append_assoc, List.singleton_append, List.length_append, List.length_singleton] at hrest
    simp only [List.zipIdx_cons, List.map_cons, defineAll, Binding.define, hat]
    cases hread : host.read? p.type v with
    | none =>
      refine .inr ⟨by simp [readParams?, hread], 0, p, v, .head hread, ?_⟩
      simp
    | some datum =>
      have hne : host.read? p.type v ≠ none := by simp [hread]
      rcases hrest with ⟨env, henv, hdefine⟩ | ⟨hnone, index, q, w, hmisread, hdefine⟩
      · exact .inl ⟨(p.name, datum) :: env, by simp [readParams?, hread, henv], by simp [hdefine, Except.map]⟩
      · refine .inr ⟨by simp [readParams?, hread, hnone], index + 1, q, w, hmisread.cons hne, ?_⟩
        simp only [hdefine, Except.map]
        rw [Nat.add_assoc, Nat.add_comm 1 index]

theorem defineAll_bindings (host : Host) (table : Signature) {args : Arguments}
    (h : args.length = table.params.length) :
    (∃ env, readParams? host table.params args = some env ∧
        defineAll host args table.bindings = .ok env) ∨
      readParams? host table.params args = none ∧ ∃ index p v,
        Misread host table.params args index p v ∧
          defineAll host args table.bindings = .error (.mismatch ⟨table.table, index, p⟩ v) := by
  have hall := defineAll_zipIdx host table.table [] h
  simpa [Signature.bindings] using hall

/-- As many arguments as parameters are never too few. -/
theorem defineAll_ne_missing (table : Signature) {args : Arguments} (h : args.length = table.params.length)
    (index count : Nat) : defineAll host args table.bindings ≠ .error (.missing index count) := by
  rcases defineAll_bindings host table h with ⟨env, -, hdefine⟩ | ⟨-, _, _, _, -, hdefine⟩
  · rw [hdefine]
    exact fun heq => nomatch heq
  · rw [hdefine]
    exact fun heq => nomatch heq

theorem defineAll_of_readParams? (table : Signature) {args : Arguments} {env : Environment host.Datum}
    (h : readParams? host table.params args = some env) : defineAll host args table.bindings = .ok env := by
  rcases defineAll_bindings host table (length_of_readParams? h) with ⟨env', henv, hdefine⟩ | ⟨hnone, -⟩
  · rw [h] at henv
    cases henv
    exact hdefine
  · rw [h] at hnone
    cases hnone

end

/-! ## Arguments by index -/

/-- The parameters that code binds, and the indexes of the arguments that it reads for them. -/
def UnitCode.reads : UnitCode → List (Param × Nat)
  | plain _ => []
  | bound bindings _ => bindings.map fun b => (b.param, b.index)

theorem Signature.reads_bindings (table : Signature) (body : Stream) {n : Nat}
    (h : n = table.params.length) :
    (UnitCode.bound table.bindings body).reads = table.params.zip (List.range n) := by
  rw [h, List.range_eq_range', ← List.zipIdx_eq_zip_range']
  simp [UnitCode.reads, Signature.bindings, Function.comp_def]

/-! ## Rows -/

/-- The arguments of a row. -/
def Row.arguments (host : Host) (env : Environment host.Datum) (r : Row) : Arguments :=
  r.values.map (host.value env)

theorem Row.arguments_entry (host : Host) (env : Environment host.Datum) (r : Row) :
    (r.entry host env).arguments = r.arguments host env := by
  unfold Row.entry
  cases r.label <;> rfl

theorem Row.length_arguments (host : Host) (env : Environment host.Datum) (r : Row) :
    (r.arguments host env).length = r.values.length :=
  List.length_map _

/-- The entries of rows fit an arity exactly if every row has so many values. -/
theorem fitsArity_rows_iff {host : Host} (env : Environment host.Datum) (rows : List Row) (n : Nat) :
    FitsArity (some n) (rows.map (Row.entry host env)) ↔ ∀ r ∈ rows, r.values.length = n := by
  simp [FitsArity, Row.arguments_entry, Row.length_arguments]

end SpecForest.Outline

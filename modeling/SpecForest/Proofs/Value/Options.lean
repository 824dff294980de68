import SpecForest.Value.Target

/-!
# Options within options

An element of an optional type, however deep the options lie within each other, is present down to the type at the
bottom, or absent at some depth. A value does not tell the depth: every absent element is written as `nil`, and `nil`
is read as absent at the outermost option. All else is read back as it was.
-/

namespace SpecForest.Target

/-! ## Depths -/

/-- A type within a number of options. -/
def nested (t : Target) : Nat → Target
  | 0 => t
  | depth + 1 => optional (t.nested depth)

/-- An element that is present at every depth. -/
def present (t : Target) : (depth : Nat) → t.Carrier → (t.nested depth).Carrier
  | 0, x => x
  | depth + 1, x => some (t.present depth x)

/-- The element that is present `j` times and then absent. -/
def absent (t : Target) : (depth j : Nat) → j < depth → (t.nested depth).Carrier
  | _ + 1, 0, _ => none
  | depth + 1, j + 1, h => some (t.absent depth j (Nat.lt_of_succ_lt_succ h))

/-- There are no other elements. -/
theorem present_or_absent (t : Target) (depth : Nat) (x : (t.nested depth).Carrier) :
    (∃ a, x = t.present depth a) ∨ ∃ j h, x = t.absent depth j h := by
  induction depth with
  | zero => exact .inl ⟨x, rfl⟩
  | succ depth ih =>
    match x with
    | none => exact .inr ⟨0, Nat.succ_pos depth, rfl⟩
    | some y =>
      rcases ih y with ⟨a, rfl⟩ | ⟨j, h, rfl⟩
      · exact .inl ⟨a, rfl⟩
      · exact .inr ⟨j + 1, Nat.succ_lt_succ h, rfl⟩

/-! ## Writing -/

theorem write_present (t : Target) (depth : Nat) (a : t.Carrier) :
    (t.nested depth).write (t.present depth a) = t.write a := by
  induction depth with
  | zero => rfl
  | succ depth ih => exact ih

theorem write_absent (t : Target) {depth j : Nat} (h : j < depth) :
    (t.nested depth).write (t.absent depth j h) = .nil := by
  induction depth generalizing j with
  | zero => exact absurd h (Nat.not_lt_zero j)
  | succ depth ih =>
    cases j with
    | zero => rfl
    | succ j => exact ih (Nat.lt_of_succ_lt_succ h)

/-! ## Reading -/

theorem read?_optional (t : Target) {v : Value} (h : v ≠ .nil) : (optional t).read? v = (t.read? v).map some := by
  cases v with
  | nil => exact absurd rfl h
  | _ => rfl

/-- What is not `nil` is read at the type at the bottom. -/
theorem read?_nested (t : Target) (depth : Nat) {v : Value} (h : v ≠ .nil) :
    (t.nested depth).read? v = (t.read? v).map (t.present depth) := by
  induction depth with
  | zero => exact Option.map_id'.symm
  | succ depth ih =>
    have hstep : (t.nested (depth + 1)).read? v = ((t.nested depth).read? v).map some := read?_optional _ h
    rw [hstep, ih, Option.map_map]
    rfl

/-- Within options, `nil` is absent at the outermost one. -/
theorem read?_nested_nil (t : Target) {depth : Nat} (h : 0 < depth) :
    (t.nested depth).read? .nil = some (t.absent depth 0 h) := by
  cases depth with
  | zero => exact absurd h (Nat.lt_irrefl 0)
  | succ depth => rfl

theorem read?_nested_eq_none_iff (t : Target) (depth : Nat) (v : Value) :
    (t.nested depth).read? v = none ↔ t.read? v = none ∧ (depth = 0 ∨ v ≠ .nil) := by
  by_cases hnil : v = .nil
  · subst hnil
    cases depth with
    | zero => simp [nested]
    | succ depth => simp [read?_nested_nil t (Nat.succ_pos depth)]
  · rw [read?_nested t depth hnil]
    simp [hnil]

/-- An integer is read from an integer value, and is the same number. -/
theorem read?_integer_eq_some_iff {k : IntegerKind} {v : Value} {n : { n : Int // k.Contains n }} :
    (integer k).read? v = some n ↔ ∃ m, v = .int m ∧ m.toInt = n.val := by
  constructor
  · intro h
    cases v with
    | int m =>
      rw [read?] at h
      split at h
      · cases h
        exact ⟨m, rfl, rfl⟩
      · cases h
    | _ => cases h
  · rintro ⟨m, rfl, hm⟩
    have hin : k.Contains m.toInt := hm ▸ n.property
    rw [read?, dif_pos hin]
    exact congrArg some (Subtype.ext hm)

theorem isSome_read?_integer_iff (k : IntegerKind) (v : Value) :
    ((integer k).read? v).isSome ↔ ∃ m : Int64, v = .int m ∧ k.Contains m.toInt := by
  rw [Option.isSome_iff_exists]
  constructor
  · rintro ⟨n, hn⟩
    obtain ⟨m, rfl, hm⟩ := read?_integer_eq_some_iff.mp hn
    exact ⟨m, rfl, hm ▸ n.property⟩
  · rintro ⟨m, rfl, hm⟩
    exact ⟨⟨m.toInt, hm⟩, read?_integer_eq_some_iff.mpr ⟨m, rfl, rfl⟩⟩

/-! ## Both ways -/

/-- The types whose elements have a value of their own: integers of up to 64 bits with a sign and of up to 32 bits
without one, truth values and texts. -/
def plainTargets : List Target :=
  [integer .int8, integer .int16, integer .int32, integer .int64, integer .uint8, integer .uint16,
    integer .uint32, bool, text]

theorem toInt_ofInt {k : IntegerKind} (hk : integer k ∈ plainTargets) {n : Int} (hn : k.Contains n) :
    (Int64.ofInt n).toInt = n := by
  have hrange : IntegerKind.int64.least ≤ k.least ∧ k.greatest ≤ IntegerKind.int64.greatest := by
    cases k <;> revert hk <;> decide
  have hleast := Int.le_trans hrange.1 hn.1
  have hgreatest := Int.le_trans hn.2 hrange.2
  simp only [IntegerKind.least, IntegerKind.greatest] at hleast hgreatest
  exact Int64.toInt_ofInt_of_le (by omega) (by omega)

theorem read?_write {t : Target} (ht : t ∈ plainTargets) (x : t.Carrier) : t.read? (t.write x) = some x := by
  cases t with
  | integer k => exact read?_integer_eq_some_iff.mpr ⟨_, rfl, toInt_ofInt ht x.property⟩
  | bool => rfl
  | text => rfl
  | _ => simp [plainTargets] at ht

theorem write_ne_nil {t : Target} (ht : t ∈ plainTargets) (x : t.Carrier) : t.write x ≠ .nil := by
  cases t with
  | integer k => exact Value.noConfusion
  | bool => exact Value.noConfusion
  | text => exact Value.noConfusion
  | _ => simp [plainTargets] at ht

theorem read?_write_present {t : Target} (ht : t ∈ plainTargets) (depth : Nat) (a : t.Carrier) :
    (t.nested depth).read? ((t.nested depth).write (t.present depth a)) = some (t.present depth a) := by
  rw [write_present, read?_nested t depth (write_ne_nil ht a), read?_write ht, Option.map_some]

theorem read?_write_absent (t : Target) {depth j : Nat} (h : j < depth) :
    (t.nested depth).read? ((t.nested depth).write (t.absent depth j h)) =
      some (t.absent depth 0 (Nat.zero_lt_of_lt h)) := by
  rw [write_absent, read?_nested_nil t (Nat.zero_lt_of_lt h)]

/-- An element within any number of options is written as a value that is read as the same element, unless it is absent
within an option that is present: then it is read as absent at once. What is not `nil` is read within options as it is
read without them, so a value is refused just if it is refused without them and there are none or it is not `nil`. At an
integer type, the integers in its range are read, each as the number that it is, and nothing else. -/
theorem nested_options_read_back {t : Target} (ht : t ∈ plainTargets) (depth : Nat) :
    (∀ x : (t.nested depth).Carrier, (∀ j h, 1 ≤ j → x ≠ t.absent depth j h) →
      (t.nested depth).read? ((t.nested depth).write x) = some x) ∧
    (∀ j h, 1 ≤ j → (t.nested depth).read? ((t.nested depth).write (t.absent depth j h)) =
      some (t.absent depth 0 (Nat.zero_lt_of_lt h))) ∧
    (∀ v, v ≠ .nil → (t.nested depth).read? v = (t.read? v).map (t.present depth)) ∧
    (∀ v, (t.nested depth).read? v = none ↔ t.read? v = none ∧ (depth = 0 ∨ v ≠ .nil)) ∧
    (∀ k v, ((integer k).read? v).isSome ↔ ∃ m : Int64, v = .int m ∧ k.Contains m.toInt) ∧
    ∀ (k : IntegerKind) (v : Value) (n : { n : Int // k.Contains n }),
      (integer k).read? v = some n ↔ ∃ m : Int64, v = .int m ∧ m.toInt = n.val := by
  refine ⟨?_, ?_, fun v => read?_nested t depth, read?_nested_eq_none_iff t depth, isSome_read?_integer_iff,
    fun k v n => read?_integer_eq_some_iff⟩
  · intro x hx
    rcases present_or_absent t depth x with ⟨a, rfl⟩ | ⟨j, h, rfl⟩
    · exact read?_write_present ht depth a
    · rcases Nat.eq_zero_or_pos j with rfl | hj
      · exact read?_write_absent t h
      · exact absurd rfl (hx j h hj)
  · intro j h _
    exact read?_write_absent t h

/-- Bytes within two options: 255 is read back, and absence at once is. Absence within an option that is present is read as
absence at once, 256 is refused, and `nil` is refused only without options. -/
theorem nested_options_read_back_byte :
    let byte := integer .uint8
    let twice := byte.nested 2
    byte ∈ plainTargets ∧
      twice.read? (twice.write (some (some ⟨255, by decide⟩))) = some (some (some ⟨255, by decide⟩)) ∧
      twice.read? (twice.write none) = some none ∧ twice.read? (twice.write (some none)) = some none ∧
      twice.read? (.int 256) = none ∧ byte.read? .nil = none ∧ twice.read? .nil ≠ none := by
  intro byte twice
  have hbyte : byte ∈ plainTargets := by decide
  obtain ⟨hback, habsent, -, hnone, -⟩ := nested_options_read_back hbyte 2
  have hone : ∀ j, j < 2 → 1 ≤ j → j = 1 := by
    intro j h hj
    omega
  refine ⟨hbyte, hback _ ?_, hback _ ?_, habsent 1 (by decide) (Nat.le_refl 1), ?_, rfl, ?_⟩
  · intro j h hj heq
    obtain rfl := hone j h hj
    cases heq
  · intro j h hj heq
    obtain rfl := hone j h hj
    cases heq
  · exact (hnone _).mpr ⟨rfl, .inr Value.noConfusion⟩
  · intro h
    exact ((hnone _).mp h).2.elim (by decide) fun hnil => hnil rfl

end SpecForest.Target

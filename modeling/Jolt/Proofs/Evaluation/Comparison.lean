import Jolt.Proofs.Tree.WellFormed
import Jolt.Value.Operators

/-!
# Comparisons are coherent

The order and the equality of values go separate ways: two strings are ordered by their bytes, two truth values are
compared as such but only for equality, undefined equals itself although it is not-a-number in the order, and everything
else is converted. Still one comparison that goes three ways stands behind all of them (`Value.ordering?`). It is decided
whenever the two values are of one type, not-a-number apart, and to exchange the values is to turn it round
(`Value.ordering?_swap`).

Main statement: `Value.compare_coherent`.
-/

namespace Jolt

/-! ## Numbers -/

namespace Number

/-- The three-way comparison of two numbers, unless one of them is not-a-number. -/
def ordering? (x y : Number) : Option Ordering :=
  match x.rank, y.rank with
  | some i, some j => some (compare i j)
  | _, _ => none

variable (x y : Number)

theorem lt_eq_ordering? : x.lt y = decide (x.ordering? y = some .lt) := by
  unfold lt ordering?
  cases x.rank with
  | none => rfl
  | some i =>
    cases y.rank with
    | none => rfl
    | some j => simp [Int.compare_eq_lt]

theorem eq_eq_ordering? : x.eq y = decide (x.ordering? y = some .eq) := by
  unfold Number.eq ordering?
  cases x.rank with
  | none => rfl
  | some i =>
    cases y.rank with
    | none => rfl
    | some j => simp [Bool.beq_eq_decide_eq]

theorem ordering?_swap : y.ordering? x = (x.ordering? y).map Ordering.swap := by
  unfold ordering?
  cases x.rank with
  | none => cases y.rank <;> rfl
  | some i =>
    cases y.rank with
    | none => rfl
    | some j => exact congrArg some (Int.compare_swap i j).symm

theorem ordering?_nan : x.ordering? nan = none := by
  unfold ordering?
  cases x.rank <;> rfl

variable {x y}

theorem isSome_ordering? (hx : x ≠ nan) (hy : y ≠ nan) : (x.ordering? y).isSome = true := by
  cases x with
  | nan => exact absurd rfl hx
  | infinite | finite =>
    cases y with
    | nan => exact absurd rfl hy
    | infinite | finite => rfl

/-- As numbers, false is below true. -/
theorem ordering?_ofBool (p q : Bool) : (ofBool p).ordering? (ofBool q) = some (compare p q) := by
  cases p <;> cases q <;> decide +kernel

end Number

/-! ## All values -/

namespace Value

/-- The three-way comparison of two values, where they can be compared. -/
def ordering? : Value → Value → Option Ordering
  | string s, string t => some (compareOfLessAndEq s t)
  | undefined, undefined => some .eq
  | a, b => a.toNumber.ordering? b.toNumber

section Ways

variable {a b : Value}

theorem ordering?_of_ne (hs : ∀ s t, a = string s → b = string t → False) (hu : a = undefined → b ≠ undefined) :
    a.ordering? b = a.toNumber.ordering? b.toNumber := by
  fun_cases ordering? a b with
  | case1 s t => exact (hs s t rfl rfl).elim
  | case2 => exact absurd rfl (hu rfl)
  | case3 => rfl

variable (a b)

theorem ordering?_swap : b.ordering? a = (a.ordering? b).map Ordering.swap := by
  fun_cases ordering? a b with
  | case1 s t => exact congrArg some (compareOfLessAndEq_eq_swap List.le_antisymm List.le_total List.not_le)
  | case2 => rfl
  | case3 a b hs hu =>
    rw [ordering?_of_ne (fun s t hb ha => hs t s ha hb) (fun hb ha => hu ha hb)]
    exact Number.ordering?_swap _ _

theorem less_eq_ordering? : less a b = decide (a.ordering? b = some .lt) := by
  fun_cases less a b with
  | case1 s t => exact decide_eq_decide.2 (by rw [ordering?, Option.some_inj, compareOfLessAndEq_eq_lt])
  | case2 a b hs =>
    by_cases hu : a = undefined ∧ b = undefined
    · obtain ⟨rfl, rfl⟩ := hu
      rfl
    · rw [ordering?_of_ne hs (not_and.1 hu), Number.lt_eq_ordering?]

theorem greater_eq_ordering? : greater a b = decide (a.ordering? b = some .gt) := by
  have hless : greater a b = less b a := by
    fun_cases greater a b with
    | case1 s t => rfl
    | case2 a b hs =>
      fun_cases less b a with
      | case1 s t => exact (hs t s rfl rfl).elim
      | case2 => rfl
  rw [hless, less_eq_ordering?, ordering?_swap a b]
  cases a.ordering? b with
  | none => rfl
  | some o => cases o <;> rfl

theorem looselyEqual_eq_ordering? : looselyEqual a b = decide (a.ordering? b = some .eq) := by
  fun_cases looselyEqual a b with
  | case1 b => cases b <;> rfl
  | case2 a hu =>
    have hnone : a.ordering? undefined = none := by
      rw [ordering?_of_ne (by simp) (fun h => absurd h hu)]
      exact Number.ordering?_nan _
    rw [hnone]
    rfl
  | case3 s t =>
    exact decide_eq_decide.2 (by rw [ordering?, Option.some_inj, compareOfLessAndEq_eq_eq List.le_refl List.not_le])
  | case4 p q =>
    have hbool : (boolean p).ordering? (boolean q) = some (Ord.compare p q) := Number.ordering?_ofBool p q
    rw [hbool]
    cases p <;> cases q <;> rfl
  | case5 a b ha hb hs hp => rw [ordering?_of_ne hs (fun h => absurd h ha), Number.eq_eq_ordering?]

end Ways

/-! ## The three comparisons -/

/-- The comparison that holds of two values that are so ordered. -/
def operatorOf : Ordering → Text
  | .lt => utf8 "<"
  | .eq => utf8 "=="
  | .gt => utf8 ">"

theorem compare_operatorOf (o : Ordering) (a b : Value) :
    compare (operatorOf o) a b = boolean (decide (a.ordering? b = some o)) := by
  cases o with
  | lt => exact congrArg boolean (less_eq_ordering? a b)
  | eq => exact congrArg boolean (looselyEqual_eq_ordering? a b)
  | gt => exact congrArg boolean (greater_eq_ordering? a b)

/-- A comparison and the one that is turned round, on exchanged values. -/
theorem compare_swap (o : Ordering) (a b : Value) : compare (operatorOf o) a b = compare (operatorOf o.swap) b a := by
  rw [compare_operatorOf, compare_operatorOf, ordering?_swap a b]
  cases a.ordering? b with
  | none => rfl
  | some o' => cases o <;> cases o' <;> rfl

/-- How many of the three comparisons hold of two values. -/
def holding (a b : Value) : Nat :=
  comparisonOperators.countP fun operator => compare operator a b = boolean true

theorem holding_eq (a b : Value) : holding a b = (a.ordering? b).toList.length := by
  have hoperators : comparisonOperators = [Ordering.lt, .gt, .eq].map operatorOf := rfl
  rw [holding, hoperators, List.countP_map]
  simp only [Function.comp_def, compare_operatorOf]
  cases a.ordering? b with
  | none => rfl
  | some o => cases o <;> rfl

/-- The pairs that are always ordered: two strings, two truth values, two numbers other than not-a-number. -/
inductive Ordered : Value → Value → Prop
  | strings (s t : Text) : Ordered (string s) (string t)
  | booleans (p q : Bool) : Ordered (boolean p) (boolean q)
  | numbers {x y : Number} : x ≠ .nan → y ≠ .nan → Ordered (number x) (number y)

theorem Ordered.isSome_ordering? {a b : Value} (h : Ordered a b) : (a.ordering? b).isSome = true := by
  cases h with
  | strings s t => rfl
  | booleans p q => exact congrArg Option.isSome (Number.ordering?_ofBool p q)
  | numbers hx hy => exact Number.isSome_ordering? hx hy

/-- Whatever the types of two values, the first is below the second exactly if the second is above the first, equality is
symmetric, and at most one of the three comparisons holds. Exactly one holds of two strings, of two truth values, and of
two numbers other than not-a-number. -/
theorem compare_coherent (a b : Value) :
    compare (utf8 "<") a b = compare (utf8 ">") b a ∧ compare (utf8 "==") a b = compare (utf8 "==") b a ∧
      holding a b ≤ 1 ∧ (Ordered a b → holding a b = 1) := by
  refine ⟨compare_swap .lt a b, compare_swap .eq a b, ?_, fun h => ?_⟩
  · rw [holding_eq]
    cases a.ordering? b with
    | none => exact Nat.zero_le 1
    | some o => exact Nat.le_refl 1
  · obtain ⟨o, ho⟩ := Option.isSome_iff_exists.1 h.isSome_ordering?
    rw [holding_eq, ho]
    rfl

/-- The two zeros are equal and neither is below the other, although they are different numbers. -/
theorem compare_coherent_zeros :
    Ordered (number (.zero true)) (number (.zero false)) ∧ Number.zero true ≠ .zero false ∧
      holding (number (.zero true)) (number (.zero false)) = 1 := by
  have h : Ordered (number (.zero true)) (number (.zero false)) := .numbers (by decide) (by decide)
  exact ⟨h, by decide, (compare_coherent _ _).2.2.2 h⟩

end Value

end Jolt

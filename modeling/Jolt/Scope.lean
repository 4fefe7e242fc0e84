import Jolt.Value

/-!
# Scopes

A scope binds names to values, in ascending order of the names.
-/

namespace Jolt

/-- Names with their values. -/
structure Scope where
  bindings : List (Text × Value)
deriving DecidableEq

namespace Scope

/-- The scope without variables. -/
def empty : Scope :=
  ⟨[]⟩

instance : Inhabited Scope := ⟨empty⟩

/-- The value bound to a name. -/
def get? (scope : Scope) (name : Text) : Option Value :=
  scope.bindings.lookup name

/-- A name that is not bound has no value. -/
def value (scope : Scope) (name : Text) : Value :=
  (scope.get? name).getD .undefined

/-- Puts a binding in its place among ascending ones. -/
def insert (name : Text) (v : Value) : List (Text × Value) → List (Text × Value)
  | [] => [(name, v)]
  | (other, w) :: r =>
    if name = other then (name, v) :: r
    else if name < other then (name, v) :: (other, w) :: r
    else (other, w) :: insert name v r

/-- Binds a name, anew or for the first time. -/
def define (scope : Scope) (name : Text) (v : Value) : Scope :=
  ⟨insert name v scope.bindings⟩

/-- The bound names in ascending order. -/
def names (scope : Scope) : List Text :=
  scope.bindings.map Prod.fst

/-- The scope of bindings made one after another. -/
def ofBindings (bindings : List (Text × Value)) : Scope :=
  bindings.foldl (fun scope b => scope.define b.1 b.2) empty

/-- What is said of a name that is not bound. -/
def notDefined (name : Text) : Text :=
  name ++ utf8 ": variable not defined"

/-! ## Bindings -/

theorem lookup_insert_self (name : Text) (v : Value) (bindings : List (Text × Value)) :
    (insert name v bindings).lookup name = some v := by
  induction bindings with
  | nil => simp [insert]
  | cons b r ih =>
    obtain ⟨other, w⟩ := b
    rw [insert]
    by_cases hn : name = other
    · simp [hn]
    · have hne : (name == other) = false := by simpa using hn
      by_cases hlt : name < other
      · simp [hn, hlt]
      · simp [hn, hlt, List.lookup_cons, hne, ih]

theorem lookup_insert_of_ne {name other : Text} (h : other ≠ name) (v : Value) (bindings : List (Text × Value)) :
    (insert name v bindings).lookup other = bindings.lookup other := by
  have hne : (other == name) = false := by simpa using h
  induction bindings with
  | nil => simp [insert, List.lookup_cons, hne]
  | cons b r ih =>
    obtain ⟨first, w⟩ := b
    rw [insert]
    by_cases hn : name = first
    · subst hn
      simp [List.lookup_cons, hne]
    · by_cases hlt : name < first
      · simp [hn, hlt, List.lookup_cons, hne]
      · simp [hn, hlt, List.lookup_cons, ih]

@[simp]
theorem get?_define_self (scope : Scope) (name : Text) (v : Value) : (scope.define name v).get? name = some v :=
  lookup_insert_self name v scope.bindings

theorem get?_define_of_ne {name other : Text} (h : other ≠ name) (scope : Scope) (v : Value) :
    (scope.define name v).get? other = scope.get? other :=
  lookup_insert_of_ne h v scope.bindings

/-! ## Scopes without gaps -/

/-- No name is bound without a value. -/
def Whole (scope : Scope) : Prop :=
  ∀ name, scope.get? name ≠ some .absent

theorem whole_empty : empty.Whole := by
  intro name h
  cases h

theorem Whole.value_ne_absent {scope : Scope} (h : scope.Whole) (name : Text) : scope.value name ≠ .absent := by
  unfold value
  cases hget : scope.get? name with
  | none => simp
  | some v =>
    rintro rfl
    exact h name hget

theorem Whole.define {scope : Scope} (h : scope.Whole) (name : Text) {v : Value} (hv : v ≠ .absent) :
    (scope.define name v).Whole := by
  intro other
  by_cases he : other = name
  · rw [he, get?_define_self]
    exact fun hsome => hv (Option.some.inj hsome)
  · rw [get?_define_of_ne he]
    exact h other

end Scope

end Jolt

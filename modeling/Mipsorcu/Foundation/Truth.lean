import Mathlib.Data.List.Basic

/-!
# Three-valued logic

The truth values of SQL: a comparison with null is unknown, and a condition takes effect only if
it is true. A disjunction is true exactly if one of its parts is
(`Truth.any_eq_true`), so a part that is unknown guards nothing.
-/

namespace Mipsorcu

/-- A truth value: true, false or, as `none`, unknown. -/
abbrev Truth := Option Bool

namespace Truth

/-- `OR`. -/
def or : Truth → Truth → Truth
  | some true, _ => some true
  | _, some true => some true
  | some false, some false => some false
  | _, _ => none

/-- The disjunction of several conditions. -/
def any (conditions : List Truth) : Truth :=
  conditions.foldr or (some false)

/-- `AND`. -/
def and : Truth → Truth → Truth
  | some false, _ => some false
  | _, some false => some false
  | some true, some true => some true
  | _, _ => none

/-- The conjunction of several conditions. -/
def all (conditions : List Truth) : Truth :=
  conditions.foldr and (some true)

/-- `NOT`. -/
def not : Truth → Truth :=
  Option.map Bool.not

/-- `=`. -/
def eq {α : Type*} [DecidableEq α] : Option α → Option α → Truth
  | some a, some b => some (decide (a = b))
  | _, _ => none

/-- `<>`. -/
def ne {α : Type*} [DecidableEq α] : Option α → Option α → Truth
  | some a, some b => some (decide (a ≠ b))
  | _, _ => none

/-- `IS NULL`. -/
def isNull {α : Type*} (a : Option α) : Truth :=
  some a.isNone

/-- `IS NOT NULL`. -/
def isNotNull {α : Type*} (a : Option α) : Truth :=
  some a.isSome

/-- The condition takes effect: it is true. -/
def holds (t : Truth) : Bool :=
  t == some true

theorem or_eq_true {s t : Truth} : or s t = some true ↔ s = some true ∨ t = some true := by
  rcases s with _ | _ | _ <;> rcases t with _ | _ | _ <;> simp [or]

variable {conditions : List Truth}

theorem any_eq_true : any conditions = some true ↔ some true ∈ conditions := by
  induction conditions with
  | nil => simp [any]
  | cons t ts ih =>
    rw [any, List.foldr_cons, or_eq_true, ← any, ih, List.mem_cons, eq_comm]

/-- A disjunction takes no effect if and only if none of its parts does. -/
theorem holds_any_eq_false : holds (any conditions) = false ↔ ∀ t ∈ conditions, t ≠ some true := by
  rw [holds, beq_eq_false_iff_ne, ne_eq, any_eq_true]
  constructor
  · rintro h t ht rfl
    exact h ht
  · intro h hmem
    exact h _ hmem rfl

theorem and_eq_false {s t : Truth} : and s t = some false ↔ s = some false ∨ t = some false := by
  rcases s with _ | _ | _ <;> rcases t with _ | _ | _ <;> simp [and]

theorem all_eq_false : all conditions = some false ↔ some false ∈ conditions := by
  induction conditions with
  | nil => simp [all]
  | cons t ts ih =>
    rw [all, List.foldr_cons, and_eq_false, ← all, ih, List.mem_cons, eq_comm]

/-- A negated conjunction takes no effect if and only if none of its parts is false: a part that is
unknown does not count. -/
theorem holds_not_all_eq_false :
    holds (not (all conditions)) = false ↔ ∀ t ∈ conditions, t ≠ some false := by
  have hnot : not (all conditions) = some true ↔ some false ∈ conditions := by
    rw [← all_eq_false]
    rcases all conditions with _ | _ | _ <;> simp [not]
  rw [holds, beq_eq_false_iff_ne, ne_eq, hnot]
  constructor
  · rintro h t ht rfl
    exact h ht
  · intro h hmem
    exact h _ hmem rfl

variable {α : Type*}

/-- An equality that is not false is unknown or true. -/
@[simp]
theorem eq_ne_false [DecidableEq α] {a b : Option α} :
    eq a b ≠ some false ↔ ∀ x y, a = some x → b = some y → x = y := by
  cases a <;> cases b <;> simp [eq]

/-- A comparison with a value takes no effect if the other side is null or is that value. -/
@[simp]
theorem ne_ne_true [DecidableEq α] {a : Option α} {b : α} :
    ne a (some b) ≠ some true ↔ ∀ x, a = some x → x = b := by
  cases a <;> simp [ne]

@[simp]
theorem isNull_ne_true {a : Option α} : isNull a ≠ some true ↔ a.isSome = true := by
  cases a <;> simp [isNull]

@[simp]
theorem isNotNull_ne_true {a : Option α} : isNotNull a ≠ some true ↔ a = none := by
  cases a <;> simp [isNotNull]

end Truth

end Mipsorcu

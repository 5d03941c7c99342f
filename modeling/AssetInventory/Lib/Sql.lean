import Mathlib.Logic.Basic

/-!
# Three-valued comparison

A comparison with `NULL` is neither true nor false, and a `WHERE` clause keeps the rows on which its
condition is *true*.  `none` is the unknown truth value.

* `eq`, `ne`, `lt`, `isIn`, `isNull`: the comparisons.
* `and`, `or`: the connectives.
* `holds`: what `WHERE` keeps, with one lemma for each comparison and connective.  `holds_ne` is the
  one that surprises: a row whose column is `NULL` is not kept by `column <> 'x'`.
-/

namespace Sql

/-- A truth value of SQL; `none` is unknown. -/
abbrev Truth := Option Bool

variable {α : Type*} [DecidableEq α]

/-- `a = 'b'`. -/
def eq (a : Option α) (b : α) : Truth := a.map fun x => decide (x = b)

/-- `a <> 'b'`. -/
def ne (a : Option α) (b : α) : Truth := a.map fun x => decide (x ≠ b)

/-- `a IN (...)`. -/
def isIn (a : Option α) (bs : List α) : Truth := a.map fun x => decide (x ∈ bs)

omit [DecidableEq α] in
/-- `a < b`. -/
def lt [LT α] [DecidableLT α] (a : Option α) (b : α) : Truth := a.map fun x => decide (x < b)

omit [DecidableEq α] in
/-- `a IS NULL`, which is never unknown. -/
def isNull (a : Option α) : Truth := some a.isNone

/-- `s AND t`: false if one is, else unknown if one is. -/
def and : Truth → Truth → Truth
  | some false, _ => some false
  | _, some false => some false
  | some true, some true => some true
  | _, _ => none

/-- `s OR t`: true if one is, else unknown if one is. -/
def or : Truth → Truth → Truth
  | some true, _ => some true
  | _, some true => some true
  | some false, some false => some false
  | _, _ => none

/-- The condition is true: `WHERE` keeps the row. -/
def holds (t : Truth) : Bool := t == some true

theorem holds_and (s t : Truth) : holds (and s t) = (holds s && holds t) := by
  rcases s with _ | _ | _ <;> rcases t with _ | _ | _ <;> rfl

theorem holds_or (s t : Truth) : holds (or s t) = (holds s || holds t) := by
  rcases s with _ | _ | _ <;> rcases t with _ | _ | _ <;> rfl

theorem holds_eq (a : Option α) (b : α) : holds (eq a b) = true ↔ a = some b := by
  cases a <;> simp [holds, eq]

/-- **Inequality keeps no `NULL`.** -/
theorem holds_ne (a : Option α) (b : α) : holds (ne a b) = true ↔ ∃ x, a = some x ∧ x ≠ b := by
  cases a <;> simp [holds, ne]

theorem holds_isIn (a : Option α) (bs : List α) :
    holds (isIn a bs) = true ↔ ∃ x, a = some x ∧ x ∈ bs := by
  cases a <;> simp [holds, isIn]

omit [DecidableEq α] in
theorem holds_lt [LT α] [DecidableLT α] (a : Option α) (b : α) :
    holds (lt a b) = true ↔ ∃ x, a = some x ∧ x < b := by
  cases a <;> simp [holds, lt]

omit [DecidableEq α] in
theorem holds_isNull (a : Option α) : holds (isNull a) = true ↔ a = none := by
  cases a <;> simp [holds, isNull]

end Sql

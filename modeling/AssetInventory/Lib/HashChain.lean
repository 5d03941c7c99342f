import Mathlib.Data.List.Basic
import Mathlib.Data.Nat.Notation

/-!
# Chained rows

Each row of a log carries a hash of its own contents and repeats the hash of the row before it; the first
row repeats a fixed hash.  `prev` and `own` read the two off a row.

* `tip`: the hash that the next row has to repeat.
* `Linked`: every row repeats the hash before it, along the list.
* `linked_append`: a log continued.
-/

namespace HashChain

variable {Row Hash : Type*} (prev own : Row → Hash)

/-- The hash at the end of some rows, after `h`. -/
def tip : Hash → List Row → Hash
  | h, [] => h
  | _, r :: rs => tip (own r) rs

/-- Each row repeats the hash before it, the first one `h`. -/
def Linked : Hash → List Row → Prop
  | _, [] => True
  | h, r :: rs => prev r = h ∧ Linked (own r) rs

variable {prev own} {h : Hash} {xs ys : List Row}

@[simp] theorem tip_nil (h : Hash) : tip own h [] = h := rfl

theorem tip_append (h : Hash) (xs ys : List Row) :
    tip own h (xs ++ ys) = tip own (tip own h xs) ys := by
  induction xs generalizing h with
  | nil => rfl
  | cons x xs ih => exact ih (own x)

theorem tip_eq (h : Hash) (xs : List Row) : tip own h xs = (xs.getLast?.map own).getD h := by
  rcases List.eq_nil_or_concat xs with rfl | ⟨ys, y, rfl⟩
  · rfl
  · rw [List.concat_eq_append, tip_append, List.getLast?_concat]
    rfl

/-- **A log continued** is linked if the new rows are linked from its tip. -/
theorem linked_append :
    Linked prev own h (xs ++ ys) ↔ Linked prev own h xs ∧ Linked prev own (tip own h xs) ys := by
  induction xs generalizing h with
  | nil => simp [Linked]
  | cons x xs ih =>
    rw [List.cons_append, Linked, ih, Linked, tip]
    exact and_assoc.symm

end HashChain

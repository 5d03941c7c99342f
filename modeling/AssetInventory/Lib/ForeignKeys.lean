import AssetInventory.Lib.Table

/-!
# Keys that refer to the rows of another table

When rows are deleted, a table whose rows refer to them refuses, loses the references, or loses the
rows.

* `DeleteRule`: which of these a key asks for; `ForeignKey`: the column with its rule.
* `unsetWhere`, `removeWhere`: the statements that clear the column or delete the rows beforehand.
* `ForeignKey.Refuses`, `ForeignKey.afterDelete`: what the deletion itself does.
* `ForeignKey.not_refers_afterDelete`: after a deletion that was not refused nothing refers to what was
  deleted.
* `KeyedTable`: a key with the rows of its table, for the list of all keys to a table.
-/

namespace RowStore

variable {K R : Type*}

/-- `ON DELETE`; `SET NULL` with the row without its key. -/
inductive DeleteRule (R : Type*) where
  | noAction
  | setNull (clear : R → R)
  | cascade

/-- The rule asks to refuse. -/
def DeleteRule.refuses : DeleteRule R → Bool
  | .noAction => true
  | _ => false

/-- A column that refers to the rows of another table. -/
structure ForeignKey (K R : Type*) where
  /-- The key in the column. -/
  ref : R → Option K
  onDelete : DeleteRule R
  cleared : ∀ clear, onDelete = .setNull clear → ∀ r, ref (clear r) = none

/-! ## Statements -/

section Statements

variable (ref : R → Option K) (p : K → Bool)

/-- The row refers to one of the keys. -/
def refersTo (r : R) : Bool := (ref r).any p

/-- `UPDATE ... SET column = NULL` where the row refers to one of the keys. -/
def unsetWhere (clear : R → R) (r : R) : R := if refersTo ref p r then clear r else r

/-- `DELETE` where the row refers to one of the keys. -/
def removeWhere (rows : List R) : List R := rows.filter fun r => !refersTo ref p r

variable {ref p}

theorem refersTo_eq_true {r : R} : refersTo ref p r = true ↔ ∃ k, ref r = some k ∧ p k = true := by
  rw [refersTo, Option.any_eq_true]

theorem refersTo_unsetWhere {clear : R → R} (h : ∀ r, ref (clear r) = none) (r : R) :
    refersTo ref p (unsetWhere ref p clear r) = false := by
  rw [unsetWhere]
  split
  · rw [refersTo, h, Option.any_none]
  · rename_i hnot
    exact Bool.eq_false_of_not_eq_true hnot

theorem refersTo_of_mem_removeWhere {rows : List R} {r : R} (h : r ∈ removeWhere ref p rows) :
    refersTo ref p r = false := by
  have hkept := (List.mem_filter.mp h).2
  rwa [Bool.not_eq_true'] at hkept

end Statements

namespace ForeignKey

/-- A key without a rule. -/
def strict (ref : R → Option K) : ForeignKey K R where
  ref := ref
  onDelete := .noAction
  cleared := by rintro _ ⟨⟩

/-- A key that takes its rows with it. -/
def cascading (ref : R → Option K) : ForeignKey K R where
  ref := ref
  onDelete := .cascade
  cleared := by rintro _ ⟨⟩

/-- A key that is given up. -/
def nulling (ref : R → Option K) (clear : R → R) (h : ∀ r, ref (clear r) = none) : ForeignKey K R where
  ref := ref
  onDelete := .setNull clear
  cleared := by
    rintro _ ⟨⟩
    exact h

variable (fk : ForeignKey K R) (p : K → Bool) (rows : List R)

/-- Some row refers to one of the keys. -/
def Refers : Prop := ∃ r ∈ rows, refersTo fk.ref p r = true

instance : Decidable (fk.Refers p rows) :=
  inferInstanceAs (Decidable (∃ r ∈ rows, refersTo fk.ref p r = true))

/-- The rows with these keys cannot be deleted. -/
def Refuses : Prop := fk.onDelete.refuses = true ∧ fk.Refers p rows

instance : Decidable (fk.Refuses p rows) := inferInstanceAs (Decidable (_ ∧ _))

/-- The rows after a deletion of the rows with these keys. -/
def afterDelete : List R :=
  match fk.onDelete with
  | .noAction => rows
  | .setNull clear => rows.map (unsetWhere fk.ref p clear)
  | .cascade => removeWhere fk.ref p rows

variable {fk p rows}

theorem not_refers_map {clear : R → R} (h : ∀ r, fk.ref (clear r) = none) :
    ¬ fk.Refers p (rows.map (unsetWhere fk.ref p clear)) := by
  rintro ⟨r, hr, hrefers⟩
  obtain ⟨old, -, rfl⟩ := List.mem_map.mp hr
  rw [refersTo_unsetWhere h] at hrefers
  cases hrefers

theorem not_refers_removeWhere : ¬ fk.Refers p (removeWhere fk.ref p rows) := by
  rintro ⟨r, hr, hrefers⟩
  rw [refersTo_of_mem_removeWhere hr] at hrefers
  cases hrefers

/-- **After a deletion** that was not refused nothing refers to what was deleted. -/
theorem not_refers_afterDelete (h : ¬ fk.Refuses p rows) : ¬ fk.Refers p (fk.afterDelete p rows) := by
  unfold afterDelete
  cases hrule : fk.onDelete with
  | noAction =>
    intro hrefers
    refine h ⟨?_, hrefers⟩
    rw [hrule]
    rfl
  | setNull clear => exact not_refers_map (fk.cleared clear hrule)
  | cascade => exact not_refers_removeWhere

end ForeignKey

/-- A key, with the rows of its table. -/
structure KeyedTable (K : Type) where
  Row : Type
  key : ForeignKey K Row
  rows : List Row

/-- Some row refers to one of the keys. -/
def KeyedTable.Refers {K : Type} (t : KeyedTable K) (p : K → Bool) : Prop := t.key.Refers p t.rows

/-- The rows with these keys cannot be deleted. -/
def KeyedTable.Refuses {K : Type} (t : KeyedTable K) (p : K → Bool) : Prop := t.key.Refuses p t.rows

instance {K : Type} (t : KeyedTable K) (p : K → Bool) : Decidable (t.Refers p) :=
  inferInstanceAs (Decidable (t.key.Refers p t.rows))

instance {K : Type} (t : KeyedTable K) (p : K → Bool) : Decidable (t.Refuses p) :=
  inferInstanceAs (Decidable (t.key.Refuses p t.rows))

end RowStore

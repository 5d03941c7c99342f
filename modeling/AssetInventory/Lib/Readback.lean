import Mathlib.Data.List.Sort

/-!
# Rows that are read back by a key

`ORDER BY` sorts the rows by a key and says nothing about rows with the same key.

* `Returned`: the orders in which the rows may be returned.
* `Returned.eq_of_strict`: rows whose keys increase strictly come back as they were stored.
* `exists_returned_swap`: two rows with the same key may come next to each other in both orders.
* `filter_insertionSort`: a test of the rows and their order do not depend on each other.
* `take_filter_of_forall`: a test that the first rows pass leaves them the first rows.
* `not_forall_returned`: if these two differ in what is read from them, no list is read off whatever the order is.
-/

namespace Readback

variable {α β γ : Type*} [LinearOrder β] {key : α → β} {rows ord rest : List α} {a b : α}

/-- The rows may be returned in this order. -/
def Returned (key : α → β) (rows ord : List α) : Prop :=
  ord.Perm rows ∧ ord.Pairwise fun a b => key a ≤ key b

instance [DecidableEq α] (rows ord : List α) : Decidable (Returned key rows ord) := by
  unfold Returned
  infer_instance

theorem exists_returned (key : α → β) (rows : List α) : ∃ ord, Returned key rows ord :=
  ⟨rows.insertionSort fun a b => key a ≤ key b, List.perm_insertionSort _ rows, List.pairwise_insertionSort _ rows⟩

/-- **Rows whose keys increase strictly** come back as they were stored. -/
theorem Returned.eq_of_strict (h : Returned key rows ord) (hstrict : rows.Pairwise fun a b => key a < key b) :
    ord = rows := by
  have hnodup : (rows.map key).Nodup := List.pairwise_map.mpr (hstrict.imp fun hlt => ne_of_lt hlt)
  refine h.1.eq_of_pairwise (fun a b ha hb hab hba => ?_) h.2 (hstrict.imp fun hlt => le_of_lt hlt)
  exact List.inj_on_of_nodup_map hnodup (h.1.mem_iff.mp ha) hb (le_antisymm hab hba)

/-- **Two rows with the same key** may come in both orders. -/
theorem exists_returned_swap (hrows : rows.Perm (a :: b :: rest)) (hkey : key a = key b) :
    ∃ front back, Returned key rows (front ++ a :: b :: back) ∧ Returned key rows (front ++ b :: a :: back) := by
  let sorted := rest.insertionSort fun x y => key x ≤ key y
  let front := sorted.filter fun x => decide (key x < key a)
  let back := sorted.filter fun x => !decide (key x < key a)
  have hperm : (front ++ back).Perm rest := (List.filter_append_perm _ sorted).trans (List.perm_insertionSort _ rest)
  have hsorted : sorted.Pairwise fun x y => key x ≤ key y := List.pairwise_insertionSort _ rest
  have hfront : ∀ x ∈ front, key x ≤ key a := fun x hx => le_of_lt (of_decide_eq_true (List.mem_filter.mp hx).2)
  have hback : ∀ x ∈ back, key a ≤ key x := fun x hx => not_lt.mp (by simpa using (List.mem_filter.mp hx).2)
  have hboth : ∀ x y, key x = key a → key y = key a → rows.Perm (x :: y :: rest) →
      Returned key rows (front ++ x :: y :: back) := by
    intro x y hx hy hxy
    constructor
    · have hmiddle : (front ++ x :: y :: back).Perm (x :: y :: (front ++ back)) :=
        List.perm_middle.trans (List.perm_middle.cons x)
      exact hmiddle.trans (((hperm.cons y).cons x).trans hxy.symm)
    · refine List.pairwise_append.mpr ⟨hsorted.filter _, ?_, fun u hu v hv => ?_⟩
      · refine List.pairwise_cons.mpr ⟨fun v hv => ?_, List.pairwise_cons.mpr ⟨fun v hv => ?_, hsorted.filter _⟩⟩
        · rcases List.mem_cons.mp hv with rfl | hv
          · exact le_of_eq (hx.trans hy.symm)
          · exact hx ▸ hback v hv
        · exact hy ▸ hback v hv
      · have hle : key a ≤ key v := by
          rcases List.mem_cons.mp hv with rfl | hv
          · exact hx.ge
          · rcases List.mem_cons.mp hv with rfl | hv
            · exact hy.ge
            · exact hback v hv
        exact (hfront u hu).trans hle
  exact ⟨front, back, hboth a b rfl hkey.symm hrows, hboth b a hkey.symm rfl (hrows.trans (List.Perm.swap b a rest))⟩

/-- **What is read from rows with the same key** is not determined, if it differs. -/
theorem not_forall_returned {f : α → γ} (hrows : rows.Perm (a :: b :: rest)) (hkey : key a = key b) (hf : f a ≠ f b)
    (read : List γ) : ¬∀ ord, Returned key rows ord → ord.map f = read := by
  intro h
  obtain ⟨front, back, hab, hba⟩ := exists_returned_swap hrows hkey
  have heq := (h _ hab).trans (h _ hba).symm
  simp only [List.map_append, List.map_cons] at heq
  exact hf (List.cons.inj (List.append_cancel_left heq)).1

/-! ## Tests -/

section Tests

variable {r : α → α → Prop} [DecidableRel r] {p : α → Bool}

theorem filter_orderedInsert [IsTrans α r] {l : List α} (hsorted : l.Pairwise r) (a : α) :
    (l.orderedInsert r a).filter p = if p a then (l.filter p).orderedInsert r a else l.filter p := by
  induction l with
  | nil => exact List.filter_cons
  | cons b l ih =>
    obtain ⟨hb, hl⟩ := List.pairwise_cons.mp hsorted
    rw [List.orderedInsert_cons]
    by_cases hab : r a b
    · rw [if_pos hab, List.filter_cons]
      split_ifs with hp
      · -- what is left of the list follows the row, as all of it does
        have hall : ∀ c ∈ (b :: l).filter p, r a c := by
          intro c hc
          rcases List.mem_cons.mp (List.mem_filter.mp hc).1 with rfl | hc
          · exact hab
          · exact IsTrans.trans a b c hab (hb c hc)
        cases hrest : (b :: l).filter p with
        | nil => rfl
        | cons c rest => rw [List.orderedInsert_cons_of_le _ _ (hall c (hrest ▸ List.mem_cons_self))]
      · rfl
    · rw [if_neg hab, List.filter_cons, ih hl, List.filter_cons]
      by_cases hpb : p b = true
      · rw [if_pos hpb, if_pos hpb]
        split_ifs
        · rw [List.orderedInsert_cons, if_neg hab]
        · rfl
      · rw [if_neg hpb, if_neg hpb]

/-- **The rows that pass a test**, before or after they are brought in order. -/
theorem filter_insertionSort [Std.Total r] [IsTrans α r] (l : List α) :
    (l.insertionSort r).filter p = (l.filter p).insertionSort r := by
  induction l with
  | nil => rfl
  | cons a l ih =>
    rw [List.insertionSort_cons, filter_orderedInsert (List.pairwise_insertionSort r l), ih, List.filter_cons]
    split_ifs
    · rw [List.insertionSort_cons]
    · rfl

theorem take_filter_of_forall {l : List α} {n : ℕ} (h : ∀ a ∈ l.take n, p a = true) :
    (l.filter p).take n = l.take n := by
  induction l generalizing n with
  | nil => rfl
  | cons a l ih =>
    cases n with
    | zero => rfl
    | succ n =>
      rw [List.take_succ_cons] at h ⊢
      rw [List.filter_cons, if_pos (h a List.mem_cons_self), List.take_succ_cons,
        ih fun b hb => h b (List.mem_cons_of_mem _ hb)]

end Tests

end Readback

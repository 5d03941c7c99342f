import Mathlib.Logic.Function.Basic
import Mathlib.Data.List.Count
import Mathlib.Data.List.Nodup
import Mathlib.Data.List.TakeWhile
import Mathlib.Data.List.Perm.Basic
import Mathlib.Data.List.Sort
import Mathlib.Data.Int.Order.Basic
import Mathlib.Tactic.Linarith

/-!
# Tables of rows with a primary key

A `Table K R` is a finite set of rows found by their key.  The list of its keys is carried with the
two facts that make it one: no key repeats, and a key is listed exactly when it has a row.  So an
aggregate over the table is an aggregate over `keys`.

* `Table.insert`, `Table.modify`, `Table.erase`: the writes, with what they do to `get` and `keys`.
* `Table.rowsWhere`: the rows that pass a test; `Table.rowsAmong`: those with a key of a list;
  `Table.rows`: all rows; `Table.mapRows`, `Table.alter`: an update of all rows.
* `Table.restrict`: the table of the rows that pass a test, and how the writes act on it.
* `Table.count`: `SELECT count(*) ... WHERE p`, with `Table.count_modify`, the exact change of a
  count under a change of one row, and `Table.count_le_count`, when a count does not rise.
* `Table.IsOrder`: the orders in which `ORDER BY` may return the rows.  Rows with equal sort keys
  may come in any order, so the order is not a function of the table.
* `inOrder`: rows in an order that nothing is known of; `scalarOneOrNone`: the row if there is only one.
* `limit`: the first rows of an order that pass a test, with `length_limit`, `rel_of_mem_limit`
  (the rows taken are the least ones) and `exists_mem_take_iff` (when a prefix of a list contains a
  marked entry).
-/

namespace RowStore

universe u v

/-- A table: rows by key, with the list of the keys in use. -/
structure Table (K : Type u) (R : Type v) where
  /-- The row under a key. -/
  get : K → Option R
  /-- The keys in use. -/
  keys : List K
  /-- No key is listed twice. -/
  nodup : keys.Nodup
  /-- The listed keys are the keys of rows. -/
  mem_keys : ∀ k, k ∈ keys ↔ (get k).isSome = true

namespace Table

variable {K : Type u} {R : Type v}

/-- The empty table. -/
def empty : Table K R where
  get := fun _ => none
  keys := []
  nodup := List.nodup_nil
  mem_keys := by simp

@[simp] theorem get_empty (k : K) : (empty : Table K R).get k = none := rfl

variable {t t' : Table K R} {k j : K} {r s : R}

theorem mem_keys_of_get (h : t.get k = some r) : k ∈ t.keys :=
  (t.mem_keys k).mpr (by rw [h]; rfl)

variable [DecidableEq K]

/-- Insert a row under a fresh key; an insert under a key in use changes nothing. -/
def insert (t : Table K R) (k : K) (r : R) : Table K R :=
  if h : t.get k = none then
    { get := Function.update t.get k (some r)
      keys := t.keys ++ [k]
      nodup := by
        have hk : k ∉ t.keys := by rw [t.mem_keys, h]; simp
        exact List.Nodup.append t.nodup (List.nodup_singleton k) (by simpa using hk)
      mem_keys := fun j => by
        by_cases hj : j = k
        · subst hj; simp
        · simp [hj, t.mem_keys] }
  else t

/-- Change the row under a key, if there is one. -/
def modify (t : Table K R) (k : K) (f : R → R) : Table K R where
  get := Function.update t.get k ((t.get k).map f)
  keys := t.keys
  nodup := t.nodup
  mem_keys := fun j => by
    rw [t.mem_keys]
    by_cases hj : j = k
    · subst hj; simp
    · rw [Function.update_of_ne hj]

theorem get_insert_self (r : R) (h : t.get k = none) : (t.insert k r).get k = some r := by
  simp [insert, h]

theorem get_insert_of_ne (r : R) (hj : j ≠ k) : (t.insert k r).get j = t.get j := by
  unfold insert
  split
  · exact Function.update_of_ne hj _ _
  · rfl

theorem get_insert_cases (h : (t.insert k r).get j = some s) :
    (j = k ∧ s = r ∧ t.get k = none) ∨ t.get j = some s := by
  by_cases hj : j = k
  · subst hj
    by_cases hn : t.get j = none
    · rw [get_insert_self r hn] at h
      exact Or.inl ⟨rfl, (Option.some.inj h).symm, hn⟩
    · rw [insert, dif_neg hn] at h
      exact Or.inr h
  · rw [get_insert_of_ne r hj] at h
    exact Or.inr h

theorem get_insert_of_get (h : t.get j = some s) : (t.insert k r).get j = some s := by
  by_cases hj : j = k
  · subst hj
    rw [insert, dif_neg (by rw [h]; simp)]
    exact h
  · rwa [get_insert_of_ne r hj]

@[simp] theorem get_modify_self (t : Table K R) (k : K) (f : R → R) :
    (t.modify k f).get k = (t.get k).map f := by
  simp [modify]

theorem get_modify_of_ne (t : Table K R) (f : R → R) (hj : j ≠ k) :
    (t.modify k f).get j = t.get j := by
  simp [modify, Function.update_of_ne hj]

theorem get_modify_insert_self (t : Table K R) (k : K) (r : R) :
    ((t.insert k r).modify k fun _ => r).get k = some r := by
  rw [get_modify_self]
  cases h : t.get k with
  | none => rw [get_insert_self r h, Option.map_some]
  | some old => rw [get_insert_of_get h, Option.map_some]

theorem get_modify_insert_of_ne (t : Table K R) (r : R) (f : R → R) (hj : j ≠ k) :
    ((t.insert k r).modify k f).get j = t.get j := by
  rw [get_modify_of_ne _ f hj, get_insert_of_ne r hj]

@[simp] theorem keys_modify (t : Table K R) (k : K) (f : R → R) : (t.modify k f).keys = t.keys :=
  rfl

theorem get_modify_cases {f : R → R} (h : (t.modify k f).get j = some s) :
    (j = k ∧ ∃ r, t.get k = some r ∧ s = f r) ∨ (j ≠ k ∧ t.get j = some s) := by
  by_cases hj : j = k
  · subst hj
    rw [get_modify_self, Option.map_eq_some_iff] at h
    obtain ⟨r, hr, hs⟩ := h
    exact Or.inl ⟨rfl, r, hr, hs.symm⟩
  · rw [get_modify_of_ne t f hj] at h
    exact Or.inr ⟨hj, h⟩

/-- Delete the row under a key, if there is one. -/
def erase (t : Table K R) (k : K) : Table K R where
  get := Function.update t.get k none
  keys := t.keys.filter fun j => decide (j ≠ k)
  nodup := t.nodup.filter _
  mem_keys := fun j => by
    rw [List.mem_filter, t.mem_keys, decide_eq_true_eq]
    by_cases hj : j = k
    · subst hj
      simp
    · rw [Function.update_of_ne hj]
      exact and_iff_left hj

@[simp] theorem get_erase_self (t : Table K R) (k : K) : (t.erase k).get k = none := by
  simp [erase]

theorem get_erase_of_ne (t : Table K R) (hj : j ≠ k) : (t.erase k).get j = t.get j := by
  simp [erase, Function.update_of_ne hj]

omit [DecidableEq K] in
/-- The rows that pass a test, with their keys. -/
def rowsWhere (t : Table K R) (p : R → Bool) : List (K × R) :=
  t.keys.filterMap fun k => (t.get k).bind fun r => if p r then some (k, r) else none

variable {p : R → Bool}

omit [DecidableEq K] in
theorem mem_rowsWhere : (k, r) ∈ t.rowsWhere p ↔ t.get k = some r ∧ p r = true := by
  rw [rowsWhere, List.mem_filterMap]
  constructor
  · rintro ⟨j, -, hj⟩
    obtain ⟨s, hs, hif⟩ := Option.bind_eq_some_iff.mp hj
    split at hif
    · rename_i hp
      obtain ⟨rfl, rfl⟩ := Prod.mk.inj (Option.some.inj hif)
      exact ⟨hs, hp⟩
    · cases hif
  · rintro ⟨hr, hp⟩
    exact ⟨k, mem_keys_of_get hr, by rw [hr, Option.bind_some, if_pos hp]⟩

omit [DecidableEq K] in
/-- A test sees a part of a row: tables that agree on the part have the same rows, as far as it goes. -/
theorem map_rowsWhere_congr {S : Type*} {f : R → S} (hkeys : t'.keys = t.keys)
    (hget : ∀ k, (t'.get k).map f = (t.get k).map f) (p : S → Bool) :
    (t'.rowsWhere fun r => p (f r)).map (Prod.map id f) =
      (t.rowsWhere fun r => p (f r)).map (Prod.map id f) := by
  have hrow : ∀ (t : Table K R) k, (((t.get k).bind fun r => if p (f r) then some (k, r) else none).map
      (Prod.map id f)) = ((t.get k).map f).bind fun s => if p s then some (k, s) else none := by
    intro t k
    cases t.get k with
    | none => rfl
    | some r =>
      rw [Option.bind_some, Option.map_some, Option.bind_some]
      split <;> rfl
  rw [rowsWhere, rowsWhere, List.map_filterMap, List.map_filterMap, hkeys]
  refine List.filterMap_congr fun k _ => ?_
  rw [hrow, hrow, hget]

theorem rowsWhere_insert (h : t.get k = none) (p : R → Bool) :
    (t.insert k r).rowsWhere p = t.rowsWhere p ++ if p r then [(k, r)] else [] := by
  have hkeys : (t.insert k r).keys = t.keys ++ [k] := by rw [insert, dif_pos h]
  rw [rowsWhere, rowsWhere, hkeys, List.filterMap_append]
  congr 1
  · refine List.filterMap_congr fun j hj => ?_
    have hne : j ≠ k := by
      rintro rfl
      rw [t.mem_keys, h] at hj
      cases hj
    rw [get_insert_of_ne r hne]
  · rw [List.filterMap_cons, get_insert_self r h, Option.bind_some]
    split <;> simp_all

omit [DecidableEq K] in
theorem nodup_rowsWhere (t : Table K R) (p : R → Bool) : ((t.rowsWhere p).map Prod.fst).Nodup := by
  have hsub : ∀ l : List K, List.Sublist
      ((l.filterMap fun k => (t.get k).bind fun r => if p r then some (k, r) else none).map
        Prod.fst) l := by
    intro l
    induction l with
    | nil => exact List.Sublist.refl _
    | cons k l ih =>
      rw [List.filterMap_cons]
      cases hk : (t.get k).bind fun r => if p r then some (k, r) else none with
      | none => exact ih.cons k
      | some x =>
        obtain ⟨r, -, hx⟩ := Option.bind_eq_some_iff.mp hk
        split at hx
        · obtain rfl := Option.some.inj hx
          exact ih.cons_cons k
        · cases hx
  exact t.nodup.sublist (hsub t.keys)

omit [DecidableEq K] in
/-- All rows. -/
def rows (t : Table K R) : List R := t.keys.filterMap t.get

omit [DecidableEq K] in
theorem mem_rows : r ∈ t.rows ↔ ∃ k, t.get k = some r := by
  rw [rows, List.mem_filterMap]
  exact ⟨fun ⟨k, _, hk⟩ => ⟨k, hk⟩, fun ⟨k, hk⟩ => ⟨k, mem_keys_of_get hk, hk⟩⟩

omit [DecidableEq K] in
/-- `UPDATE` of all rows. -/
def mapRows (t : Table K R) (f : R → R) : Table K R where
  get := fun k => (t.get k).map f
  keys := t.keys
  nodup := t.nodup
  mem_keys := fun k => by rw [t.mem_keys, Option.isSome_map]

omit [DecidableEq K] in
/-- `ALTER TABLE` and an `UPDATE` that looks at the keys: each row is replaced. -/
def alter {S : Type*} (t : Table K R) (f : K → R → S) : Table K S where
  get := fun k => (t.get k).map (f k)
  keys := t.keys
  nodup := t.nodup
  mem_keys := fun k => by rw [t.mem_keys, Option.isSome_map]

/-- `WHERE key IN (...)`: the rows with a key of a list, each once. -/
def rowsAmong (t : Table K R) (ks : List K) : List (K × R) :=
  ks.dedup.filterMap fun k => (t.get k).map fun r => (k, r)

/-! ## Parts of a table -/

omit [DecidableEq K] in
theorem ext_get {u : Table K R} (hget : ∀ k, t.get k = u.get k) (hkeys : t.keys = u.keys) :
    t = u := by
  obtain ⟨tget, tkeys, _, _⟩ := t
  obtain ⟨uget, ukeys, _, _⟩ := u
  obtain rfl : tget = uget := funext hget
  obtain rfl : tkeys = ukeys := hkeys
  rfl

omit [DecidableEq K] in
/-- The rows that pass a test, as a table. -/
def restrict (t : Table K R) (p : K → R → Bool) : Table K R where
  get := fun k => (t.get k).filter (p k)
  keys := t.keys.filter fun k => (t.get k).any (p k)
  nodup := t.nodup.filter _
  mem_keys := fun k => by
    rw [List.mem_filter, t.mem_keys]
    cases t.get k with
    | none => simp
    | some r => by_cases hr : p k r = true <;> simp [hr]

omit [DecidableEq K] in
@[simp] theorem rows_mapRows (t : Table K R) (f : R → R) : (t.mapRows f).rows = t.rows.map f :=
  (List.map_filterMap (f := t.get) (g := f) (l := t.keys)).symm

omit [DecidableEq K] in
@[simp] theorem rows_restrict (t : Table K R) (q : R → Bool) :
    (t.restrict fun _ => q).rows = t.rows.filter q := by
  have hkeys : ∀ ks : List K, (ks.filter fun k => (t.get k).any q).filterMap
      (fun k => (t.get k).filter q) = (ks.filterMap t.get).filter q := by
    intro ks
    induction ks with
    | nil => rfl
    | cons k ks ih =>
      cases hk : t.get k with
      | none => simp [hk, ih]
      | some r =>
        by_cases hr : q r = true
        · have hany : (k :: ks).filter (fun k => (t.get k).any q) =
              k :: ks.filter fun k => (t.get k).any q :=
            List.filter_cons_of_pos (by rw [hk, Option.any_some, hr])
          have hfilter : (some r).filter q = some r := by rw [Option.filter_some, if_pos hr]
          rw [hany, List.filterMap_cons, List.filterMap_cons, hk, hfilter]
          simp [hr, ih]
        · simp [hk, hr, ih]
  exact hkeys t.keys

section Restrict

variable {t : Table K R} {p : K → R → Bool} {k : K}

omit [DecidableEq K] in
theorem get_restrict : (t.restrict p).get k = (t.get k).filter (p k) := rfl

omit [DecidableEq K] in
theorem rowsWhere_restrict {q : R → Bool} (h : ∀ k r, t.get k = some r → q r = true → p k r = true) :
    (t.restrict p).rowsWhere q = t.rowsWhere q := by
  change (t.keys.filter fun k => (t.get k).any (p k)).filterMap
    (fun k => ((t.get k).filter (p k)).bind fun r => if q r then some (k, r) else none) = t.rowsWhere q
  rw [List.filterMap_filter]
  refine List.filterMap_congr fun k _ => ?_
  cases hk : t.get k with
  | none => rfl
  | some r =>
    rw [Option.any_some, Option.filter_some, Option.bind_some]
    by_cases hp : p k r = true
    · rw [if_pos hp, if_pos hp, Option.bind_some]
    · rw [if_neg hp, if_neg fun hq => hp (h k r hk hq)]

theorem restrict_modify (f : R → R) (h : ∀ r, p k (f r) = p k r) :
    (t.modify k f).restrict p = (t.restrict p).modify k f := by
  refine ext_get (fun j => ?_) (List.filter_congr fun j _ => ?_)
  · by_cases hj : j = k
    · subst hj
      rw [get_restrict, get_modify_self, get_modify_self, get_restrict]
      cases t.get j with
      | none => rfl
      | some r => rw [Option.map_some, Option.filter_some, Option.filter_some, h]; split <;> rfl
    · rw [get_restrict, get_modify_of_ne _ _ hj, get_modify_of_ne _ _ hj, get_restrict]
  · by_cases hj : j = k
    · subst hj
      rw [get_modify_self]
      cases t.get j with
      | none => rfl
      | some r => exact h r
    · rw [get_modify_of_ne _ _ hj]

theorem restrict_modify_of_not (f : R → R) (h : ∀ r, p k r = false) :
    (t.modify k f).restrict p = t.restrict p := by
  rw [restrict_modify f fun r => by rw [h, h]]
  refine ext_get (fun j => ?_) rfl
  by_cases hj : j = k
  · subst hj
    rw [get_modify_self, get_restrict]
    cases t.get j with
    | none => rfl
    | some r => rw [Option.filter_some, h, if_neg Bool.false_ne_true, Option.map_none]
  · rw [get_modify_of_ne _ _ hj]

theorem restrict_insert_of_not (h : p k r = false) : (t.insert k r).restrict p = t.restrict p := by
  by_cases hk : t.get k = none
  · have hnot : k ∉ t.keys := by rw [t.mem_keys, hk]; simp
    refine ext_get (fun j => ?_) ?_
    · by_cases hj : j = k
      · subst hj
        rw [get_restrict, get_insert_self r hk, Option.filter_some, h, if_neg Bool.false_ne_true,
          get_restrict, hk, Option.filter_none]
      · rw [get_restrict, get_insert_of_ne r hj, get_restrict]
    · have hkeys : (t.insert k r).keys = t.keys ++ [k] := by simp [insert, hk]
      have hold : t.keys.filter (fun j => ((t.insert k r).get j).any (p j)) =
          t.keys.filter fun j => (t.get j).any (p j) :=
        List.filter_congr fun j hj => by
          rw [get_insert_of_ne r (ne_of_mem_of_not_mem hj hnot)]
      change ((t.insert k r).keys.filter fun j => ((t.insert k r).get j).any (p j)) =
        t.keys.filter fun j => (t.get j).any (p j)
      rw [hkeys, List.filter_append, hold, List.filter_cons_of_neg, List.filter_nil, List.append_nil]
      rw [get_insert_self r hk, Option.any_some, h]
      exact Bool.false_ne_true
  · rw [insert, dif_neg hk]

end Restrict

/-! ## Counting -/

/-- The number of rows that pass a test. -/
def count (t : Table K R) (p : R → Bool) : ℕ := t.keys.countP fun k => (t.get k).any p

omit [DecidableEq K] in
/-- Two tests that agree away from one entry of a duplicate-free list have counts that differ by
what they say of that entry. -/
theorem countP_eq_of_agree {l : List K} (hl : l.Nodup) (hk : k ∈ l) {p q : K → Bool}
    (hpq : ∀ j, j ≠ k → p j = q j) :
    l.countP p + (if q k then 1 else 0) = l.countP q + (if p k then 1 else 0) := by
  obtain ⟨l₁, l₂, rfl⟩ := List.append_of_mem hk
  have hnot : ∀ j ∈ l₁ ++ l₂, j ≠ k := by
    intro j hj hjk
    subst hjk
    have h := List.nodup_middle.mp hl
    exact (List.nodup_cons.mp h).1 hj
  have h₁ : l₁.countP p = l₁.countP q :=
    List.countP_congr fun j hj => by rw [hpq j (hnot j (List.mem_append_left _ hj))]
  have h₂ : l₂.countP p = l₂.countP q :=
    List.countP_congr fun j hj => by rw [hpq j (hnot j (List.mem_append_right _ hj))]
  rw [List.countP_append, List.countP_append, List.countP_cons, List.countP_cons, h₁, h₂]
  omega

/-- **The change of a count** when one row changes. -/
theorem count_modify (h : t.get k = some r) (f : R → R) (p : R → Bool) :
    (t.modify k f).count p + (if p r then 1 else 0) = t.count p + (if p (f r) then 1 else 0) := by
  have hagree : ∀ j, j ≠ k → (((t.modify k f).get j).any p) = ((t.get j).any p) := fun j hj => by
    rw [get_modify_of_ne t f hj]
  have hcount := countP_eq_of_agree t.nodup (mem_keys_of_get h) hagree
  rw [get_modify_self, h] at hcount
  simpa [count] using hcount

omit [DecidableEq K] in
/-- A change of rows that turns the test on nowhere does not raise the count. -/
theorem count_le_count (hkeys : t'.keys = t.keys)
    (h : ∀ k r', t'.get k = some r' → p r' = true → ∃ r, t.get k = some r ∧ p r = true) :
    t'.count p ≤ t.count p := by
  rw [count, count, hkeys]
  refine List.countP_mono_left fun k _ hk => ?_
  rw [Option.any_eq_true] at hk ⊢
  obtain ⟨r', hr', hp⟩ := hk
  exact h k r' hr' hp

theorem count_modify_le_succ (t : Table K R) (k : K) (f : R → R) (p : R → Bool) :
    (t.modify k f).count p ≤ t.count p + 1 := by
  cases h : t.get k with
  | none =>
    refine (count_le_count (keys_modify t k f) fun j r' hr' hp => ⟨r', ?_, hp⟩).trans
      (Nat.le_succ _)
    rcases get_modify_cases hr' with ⟨-, r, hr, -⟩ | ⟨-, hr⟩
    · rw [h] at hr
      cases hr
    · exact hr
  | some r =>
    have hc := count_modify h f p
    split at hc <;> split at hc <;> omega

theorem count_insert_of_not (t : Table K R) (k : K) (hr : p r = false) :
    (t.insert k r).count p = t.count p := by
  by_cases h : t.get k = none
  · have hk : k ∉ t.keys := by rw [t.mem_keys, h]; simp
    have hold : t.keys.countP (fun j => ((t.insert k r).get j).any p) =
        t.keys.countP fun j => (t.get j).any p :=
      List.countP_congr fun j hj => by
        have hjk : j ≠ k := by rintro rfl; exact hk hj
        rw [get_insert_of_ne r hjk]
    have hkeys : (t.insert k r).keys = t.keys ++ [k] := by simp [insert, h]
    rw [count, hkeys, List.countP_append, hold, count]
    simp [get_insert_self r h, hr]
  · rw [insert, dif_neg h]

/-! ## Orders -/

/-- The sort key of a row, by its primary key. -/
def sortKey (t : Table K R) (by_ : R → ℤ) (k : K) : ℤ := ((t.get k).map by_).getD 0

/-- The orders in which `ORDER BY by_` may return the whole table. -/
def IsOrder (t : Table K R) (by_ : R → ℤ) (ord : List K) : Prop :=
  ord.Perm t.keys ∧ ord.Pairwise fun j k => t.sortKey by_ j ≤ t.sortKey by_ k

instance (t : Table K R) (by_ : R → ℤ) (ord : List K) : Decidable (t.IsOrder by_ ord) := by
  unfold IsOrder
  infer_instance

omit [DecidableEq K] in
theorem IsOrder.nodup {by_ : R → ℤ} {ord : List K} (h : t.IsOrder by_ ord) :
    ord.Nodup := h.1.nodup_iff.mpr t.nodup

omit [DecidableEq K] in
theorem IsOrder.mem_of_get {by_ : R → ℤ} {ord : List K} (h : t.IsOrder by_ ord)
    (hk : t.get k = some r) : k ∈ ord :=
  h.1.mem_iff.mpr (mem_keys_of_get hk)

end Table

/-! ## The results of a query -/

section Results

variable {K R α : Type}

/-- Rows in the order of the ranks of their keys. -/
def inOrder (rank : K → ℕ) (rows : List (K × R)) : List (K × R) :=
  rows.insertionSort fun a b => rank a.1 ≤ rank b.1

theorem mem_inOrder {rank : K → ℕ} {rows : List (K × R)} {x : K × R} :
    x ∈ inOrder rank rows ↔ x ∈ rows := (List.perm_insertionSort _ rows).mem_iff

/-- **Any of the rows may come first.** -/
theorem exists_inOrder_cons [DecidableEq K] {rows : List (K × R)} {x : K × R}
    (hkeys : (rows.map Prod.fst).Nodup) (hx : x ∈ rows) :
    ∃ rank rest, inOrder rank rows = x :: rest := by
  obtain ⟨rank, hself, hother⟩ : ∃ rank : K → ℕ, rank x.1 = 0 ∧ ∀ k ≠ x.1, rank k = 1 :=
    ⟨fun k => if k = x.1 then 0 else 1, if_pos rfl, fun k hk => if_neg hk⟩
  have hmem : x ∈ inOrder rank rows := mem_inOrder.mpr hx
  have hsorted : (inOrder rank rows).Pairwise fun a b => rank a.1 ≤ rank b.1 :=
    List.pairwise_insertionSort _ rows
  match hrows : inOrder rank rows with
  | [] =>
    rw [hrows] at hmem
    cases hmem
  | z :: rest =>
    have hz : z ∈ rows := mem_inOrder.mp (hrows ▸ List.mem_cons_self)
    have hzero : rank z.1 = 0 := by
      rw [hrows] at hmem hsorted
      rcases List.mem_cons.mp hmem with rfl | hrest
      · exact hself
      · exact Nat.le_zero.mp (hself ▸ List.rel_of_pairwise_cons hsorted hrest)
    have hkey : z.1 = x.1 := by
      by_contra hne
      rw [hother z.1 hne] at hzero
      cases hzero
    have hzx : z = x := List.inj_on_of_nodup_map hkeys hz hx hkey
    exact ⟨rank, rest, by rw [hrows, hzx]⟩

/-- `scalar_one_or_none()`; `none` is `MultipleResultsFound`. -/
def scalarOneOrNone : List α → Option (Option α)
  | [] => some none
  | [x] => some (some x)
  | _ => none

theorem mem_of_scalarOneOrNone {xs : List α} {x : α} (h : scalarOneOrNone xs = some (some x)) :
    x ∈ xs := by
  match xs, h with
  | [_], rfl => exact List.mem_singleton_self _

theorem scalarOneOrNone_map {β : Type} (f : α → β) (xs : List α) :
    scalarOneOrNone (xs.map f) = (scalarOneOrNone xs).map (Option.map f) := by
  match xs with
  | [] => rfl
  | [_] => rfl
  | _ :: _ :: _ => rfl

theorem inOrder_map {S : Type} (rank : K → ℕ) (f : R → S) (rows : List (K × R)) :
    (inOrder rank rows).map (Prod.map id f) = inOrder rank (rows.map (Prod.map id f)) :=
  List.map_insertionSort _ _ _ _ fun _ _ _ _ => Iff.rfl

theorem exists_ne_of_scalarOneOrNone {p : R → Bool} {t : Table K R}
    (h : scalarOneOrNone (t.rowsWhere p) = none) :
    ∃ k k' r r', k ≠ k' ∧ (t.get k = some r ∧ p r = true) ∧ t.get k' = some r' ∧ p r' = true := by
  have hnodup := Table.nodup_rowsWhere t p
  match hrows : t.rowsWhere p, h with
  | [], h => cases h
  | [_], h => cases h
  | (k, r) :: (k', r') :: rest, _ =>
    rw [hrows] at hnodup
    refine ⟨k, k', r, r', ?_, Table.mem_rowsWhere.mp ?_, Table.mem_rowsWhere.mp ?_⟩
    · rintro rfl
      exact (List.nodup_cons.mp hnodup).1 List.mem_cons_self
    · rw [hrows]
      exact List.mem_cons_self
    · rw [hrows]
      exact List.mem_cons_of_mem _ List.mem_cons_self

end Results

/-! ## The first rows of an order -/

section Limit

variable {K : Type u}

/-- `WHERE p ... LIMIT n` over the rows in the order `ord`. -/
def limit (ord : List K) (p : K → Bool) (n : ℕ) : List K := (ord.filter p).take n

theorem mem_of_mem_limit {k : K} {ord : List K} {p : K → Bool} {n : ℕ} (h : k ∈ limit ord p n) :
    k ∈ ord ∧ p k = true :=
  List.mem_filter.mp (List.mem_of_mem_take h)

theorem nodup_limit {ord : List K} (h : ord.Nodup) (p : K → Bool) (n : ℕ) : (limit ord p n).Nodup :=
  (h.filter p).sublist (List.take_sublist _ _)

theorem length_limit (ord : List K) (p : K → Bool) (n : ℕ) :
    (limit ord p n).length = min n (ord.countP p) := by
  rw [limit, List.length_take, List.countP_eq_length_filter]

theorem pairwise_limit {ord : List K} {rel : K → K → Prop} (h : ord.Pairwise rel) (p : K → Bool)
    (n : ℕ) : (limit ord p n).Pairwise rel :=
  (h.filter p).sublist (List.take_sublist _ _)

/-- **The limit takes the least.**  A row that is taken is at most every admissible row that is
not. -/
theorem rel_of_mem_limit {ord : List K} {rel : K → K → Prop} (h : ord.Pairwise rel)
    {p : K → Bool} {n : ℕ} {j k : K} (hj : j ∈ limit ord p n) (hk : k ∈ ord) (hpk : p k = true)
    (hkn : k ∉ limit ord p n) : rel j k := by
  have hsplit : (ord.filter p).take n ++ (ord.filter p).drop n = ord.filter p :=
    List.take_append_drop n _
  have hkf : k ∈ ord.filter p := List.mem_filter.mpr ⟨hk, hpk⟩
  rw [← hsplit, List.mem_append] at hkf
  have hpair : ((ord.filter p).take n ++ (ord.filter p).drop n).Pairwise rel := by
    rw [hsplit]
    exact h.filter p
  exact (List.pairwise_append.mp hpair).2.2 j hj k (hkf.resolve_left hkn)

/-- A prefix contains a marked entry exactly when some marked entry has fewer unmarked ones before
it than the length of the prefix. -/
theorem exists_mem_take_iff [DecidableEq K] {l : List K} {q : K → Bool} {n : ℕ} :
    (∃ k ∈ l.take n, q k = true) ↔
      ∃ k ∈ l, q k = true ∧ (l.takeWhile fun j => decide (j ≠ k)).countP (fun j => !q j) < n := by
  induction l generalizing n with
  | nil => simp
  | cons a l ih =>
    cases n with
    | zero => simp
    | succ n =>
      by_cases ha : q a = true
      · -- the first entry is marked, and nothing comes before it
        refine iff_of_true ⟨a, List.mem_cons_self, ha⟩ ⟨a, List.mem_cons_self, ha, ?_⟩
        rw [List.takeWhile_cons_of_neg (by simp)]
        exact Nat.succ_pos n
      · have hcons : ∀ k, q k = true → (((a :: l).takeWhile fun j => decide (j ≠ k)).countP
            (fun j => !q j) < n + 1 ↔
              (l.takeWhile fun j => decide (j ≠ k)).countP (fun j => !q j) < n) := by
          intro k hk
          have hak : a ≠ k := by
            rintro rfl
            exact ha hk
          rw [List.takeWhile_cons_of_pos (by simpa using hak),
            List.countP_cons_of_pos (by simpa using ha), Nat.add_lt_add_iff_right]
        constructor
        · rintro ⟨k, hk, hq⟩
          rcases List.mem_cons.mp hk with rfl | hk
          · exact absurd hq ha
          · obtain ⟨j, hj, hqj, hlt⟩ := ih.mp ⟨k, hk, hq⟩
            exact ⟨j, List.mem_cons_of_mem _ hj, hqj, (hcons j hqj).mpr hlt⟩
        · rintro ⟨k, hk, hq, hlt⟩
          rcases List.mem_cons.mp hk with rfl | hk
          · exact absurd hq ha
          · obtain ⟨j, hj, hqj⟩ := ih.mpr ⟨k, hk, hq, (hcons k hq).mp hlt⟩
            exact ⟨j, List.mem_cons_of_mem _ hj, hqj⟩

end Limit

end RowStore

import AssetInventory.Lib.Table

/-!
# Upserts into a table with a second unique column

`INSERT ... ON CONFLICT (key) DO UPDATE` writes a row under its key, and fails where another row has the value
of the unique column.

* `UniqueTable`: a table in which no two rows agree in the column.
* `UniqueTable.upsert`: the statement, with `exists_upsert_iff` and `get_upsert`.
* `upsertAll`: several of them; `exists_upsertAll_iff`: they all succeed if and only if each row of the table that
  stands in the way is the one to be written or has been written before.
-/

namespace RowStore

variable {K R C : Type*}

/-- A table in which no two rows agree in a column. -/
structure UniqueTable (K : Type*) (R : Type*) {C : Type*} (column : R → C) where
  rows : Table K R
  unique : ∀ {k j : K} {r s : R}, rows.get k = some r → rows.get j = some s → column r = column s → k = j

namespace UniqueTable

variable {column : R → C}

/-- A row with the same value in the column is under another key. -/
def Taken (t : UniqueTable K R column) (k : K) (r : R) : Prop :=
  ∃ j ∈ t.rows.keys, j ≠ k ∧ (t.rows.get j).map column = some (column r)

instance [DecidableEq K] [DecidableEq C] (t : UniqueTable K R column) (k : K) (r : R) : Decidable (t.Taken k r) :=
  inferInstanceAs (Decidable (∃ j ∈ _, _ ∧ _))

variable {t t' : UniqueTable K R column}

theorem not_taken_iff {k : K} {r : R} :
    ¬t.Taken k r ↔ ∀ j s, t.rows.get j = some s → column s = column r → j = k := by
  unfold Taken
  constructor
  · intro h j s hget hcolumn
    by_contra hne
    exact h ⟨j, Table.mem_keys_of_get hget, hne, by rw [hget, Option.map_some, hcolumn]⟩
  · rintro h ⟨j, -, hne, hcolumn⟩
    obtain ⟨s, hget, hs⟩ := Option.map_eq_some_iff.mp hcolumn
    exact hne (h j s hget hs)

/-- The rows to be written differ in the column, and a row of the table that has the value of one of them has its
key or the key of one that is written earlier. -/
structure MakesWay (t : UniqueTable K R column) (entries : List (K × R)) : Prop where
  distinct : (entries.map fun entry => column entry.2).Nodup
  earlier : ∀ front entry back, entries = front ++ entry :: back → ∀ j s, t.rows.get j = some s →
    column s = column entry.2 → j = entry.1 ∨ j ∈ front.map Prod.fst

theorem makesWay_filterMap_iff {α : Type*} {f : α → Option (K × R)} {xs : List α} :
    t.MakesWay (xs.filterMap f) ↔
      (xs.Pairwise fun x y => ∀ e, f x = some e → ∀ e', f y = some e' → column e.2 ≠ column e'.2) ∧
        ∀ front x back, xs = front ++ x :: back → ∀ e, f x = some e → ∀ j s, t.rows.get j = some s →
          column s = column e.2 → j = e.1 ∨ ∃ y ∈ front, ∃ e', f y = some e' ∧ e'.1 = j := by
  have hkeys : ∀ {front : List α} {j : K}, j ∈ (front.filterMap f).map Prod.fst ↔
      ∃ y ∈ front, ∃ e', f y = some e' ∧ e'.1 = j := by
    intro front j
    simp only [List.mem_map, List.mem_filterMap]
    constructor
    · rintro ⟨e, ⟨y, hy, he⟩, hj⟩
      exact ⟨y, hy, e, he, hj⟩
    · rintro ⟨y, hy, e, he, hj⟩
      exact ⟨e, ⟨y, hy, he⟩, hj⟩
  constructor
  · rintro ⟨hdistinct, hearlier⟩
    refine ⟨?_, fun front x back hsplit e he j s hj hs => ?_⟩
    · rw [List.Nodup, List.pairwise_map, List.pairwise_filterMap] at hdistinct
      exact hdistinct
    · refine (hearlier (front.filterMap f) e (back.filterMap f) ?_ j s hj hs).imp_right hkeys.mp
      rw [hsplit, List.filterMap_append, List.filterMap_cons_some he]
  · rintro ⟨hdistinct, hearlier⟩
    refine ⟨?_, fun front e back hsplit j s hj hs => ?_⟩
    · rw [List.Nodup, List.pairwise_map, List.pairwise_filterMap]
      exact hdistinct
    · obtain ⟨xs₁, xs₂, rfl, rfl, hrest⟩ := List.filterMap_eq_append_iff.mp hsplit
      obtain ⟨skipped, x, xs₃, rfl, hskipped, hx, rfl⟩ := List.filterMap_eq_cons_iff.mp hrest
      refine (hearlier (xs₁ ++ skipped) x xs₃ (by rw [List.append_assoc]) e hx j s hj hs).imp_right fun h => ?_
      obtain ⟨y, hy, e', he', hkey⟩ := h
      refine hkeys.mpr ⟨y, (List.mem_append.mp hy).resolve_right fun hskip => ?_, e', he', hkey⟩
      exact absurd (he'.symm.trans (hskipped y hskip)) (by simp)

variable [DecidableEq K]

theorem get_written (t : Table K R) (k : K) (r : R) (j : K) :
    ((t.insert k r).modify k fun _ => r).get j = if j = k then some r else t.get j := by
  split_ifs with h
  · rw [h, Table.get_modify_insert_self]
  · rw [Table.get_modify_insert_of_ne t r _ h]

variable [DecidableEq C]

/-- The row is inserted, or takes the place of the row that has its key. -/
def upsert (t : UniqueTable K R column) (k : K) (r : R) : Option (UniqueTable K R column) :=
  if h : t.Taken k r then none
  else some
    { rows := (t.rows.insert k r).modify k fun _ => r
      unique := by
        intro i j s s' hi hj hs
        have hfree := not_taken_iff.mp h
        rw [get_written] at hi hj
        split_ifs at hi hj with hik hjk hjk
        · rw [hik, hjk]
        · cases hi
          exact absurd (hfree j s' hj hs.symm) hjk
        · cases hj
          exact absurd (hfree i s hi hs) hik
        · exact t.unique hi hj hs }

theorem exists_upsert_iff {k : K} {r : R} :
    (∃ t', t.upsert k r = some t') ↔ ∀ j s, t.rows.get j = some s → column s = column r → j = k := by
  rw [← not_taken_iff, upsert]
  split_ifs with h <;> simp [h]

theorem get_upsert {k : K} {r : R} (h : t.upsert k r = some t') (j : K) :
    t'.rows.get j = if j = k then some r else t.rows.get j := by
  unfold upsert at h
  split_ifs at h
  cases h
  exact get_written _ _ _ _

/-- Several rows are written, one after the other. -/
def upsertAll (t : UniqueTable K R column) (entries : List (K × R)) : Option (UniqueTable K R column) :=
  entries.foldlM (fun t entry => t.upsert entry.1 entry.2) t

variable {entries : List (K × R)}

theorem makesWay_cons_iff {entry : K × R}
    (hkeys : ((entry :: entries).map Prod.fst).Nodup) (hup : t.upsert entry.1 entry.2 = some t') :
    t.MakesWay (entry :: entries) ↔ t'.MakesWay entries := by
  have hget := get_upsert hup
  have hfree := exists_upsert_iff.mp ⟨t', hup⟩
  rw [List.map_cons, List.nodup_cons] at hkeys
  constructor
  · rintro ⟨hdistinct, hearlier⟩
    rw [List.map_cons, List.nodup_cons] at hdistinct
    refine ⟨hdistinct.2, fun front e back hsplit j s hj hs => ?_⟩
    rw [hget] at hj
    split_ifs at hj with hje
    · cases hj
      refine absurd ?_ hdistinct.1
      rw [hs, hsplit]
      exact List.mem_map_of_mem (List.mem_append_right _ List.mem_cons_self)
    · refine (hearlier (entry :: front) e back (by rw [hsplit]; rfl) j s hj hs).imp_right fun hmem => ?_
      exact (List.mem_cons.mp hmem).resolve_left hje
  · rintro ⟨hdistinct, hearlier⟩
    refine ⟨?_, fun front e back hsplit j s hj hs => ?_⟩
    · rw [List.map_cons, List.nodup_cons]
      refine ⟨fun hmem => ?_, hdistinct⟩
      obtain ⟨e, he, hcolumn⟩ := List.mem_map.mp hmem
      obtain ⟨front, back, hsplit⟩ := List.mem_iff_append.mp he
      refine hkeys.1 ?_
      rw [hsplit, List.map_append]
      rcases hearlier front e back hsplit entry.1 entry.2 ((hget _).trans (if_pos rfl)) hcolumn.symm with h | h
      · rw [h]
        exact List.mem_append_right _ List.mem_cons_self
      · exact List.mem_append_left _ h
    · rcases List.cons_eq_append_iff.mp hsplit with ⟨rfl, h⟩ | ⟨front', rfl, h⟩
      · cases h
        exact .inl (hfree j s hj hs)
      · by_cases hje : j = entry.1
        · exact .inr (hje ▸ List.mem_cons_self)
        · exact (hearlier front' e back h j s ((hget j).trans ((if_neg hje).trans hj)) hs).imp_right
            (List.mem_cons_of_mem _)

/-- **All rows can be written** exactly when the table makes way for them. -/
theorem exists_upsertAll_iff (hkeys : (entries.map Prod.fst).Nodup) :
    (∃ t', t.upsertAll entries = some t') ↔ t.MakesWay entries := by
  induction entries generalizing t with
  | nil =>
    refine ⟨fun _ => ⟨List.nodup_nil, fun front entry back h => ?_⟩, fun _ => ⟨t, rfl⟩⟩
    exact absurd h (by simp)
  | cons entry entries ih =>
    cases hup : t.upsert entry.1 entry.2 with
    | none =>
      have hnone : t.upsertAll (entry :: entries) = none := by
        rw [upsertAll, List.foldlM_cons, hup]
        rfl
      rw [hnone]
      refine ⟨fun h => absurd h (by simp), fun hway => ?_⟩
      have hfree := exists_upsert_iff.mpr fun j s hj hs =>
        (hway.earlier [] entry entries rfl j s hj hs).resolve_right (by simp)
      rw [hup] at hfree
      exact absurd hfree (by simp)
    | some t' =>
      have hrest : t.upsertAll (entry :: entries) = t'.upsertAll entries := by
        rw [upsertAll, List.foldlM_cons, hup]
        rfl
      rw [hrest, makesWay_cons_iff hkeys hup, ih (List.nodup_cons.mp hkeys).2]

theorem get_upsertAll (hkeys : (entries.map Prod.fst).Nodup) (h : t.upsertAll entries = some t') :
    (∀ entry ∈ entries, t'.rows.get entry.1 = some entry.2) ∧
      ∀ j ∉ entries.map Prod.fst, t'.rows.get j = t.rows.get j := by
  induction entries generalizing t with
  | nil =>
    cases h
    exact ⟨by simp, fun _ _ => rfl⟩
  | cons entry entries ih =>
    rw [upsertAll, List.foldlM_cons] at h
    obtain ⟨t₁, hup, hrest⟩ := Option.bind_eq_some_iff.mp h
    rw [List.map_cons, List.nodup_cons] at hkeys
    obtain ⟨hwritten, hother⟩ := ih hkeys.2 hrest
    refine ⟨fun e he => ?_, fun j hj => ?_⟩
    · rcases List.mem_cons.mp he with rfl | he
      · rw [hother _ hkeys.1, get_upsert hup, if_pos rfl]
      · exact hwritten e he
    · rw [List.map_cons, List.mem_cons, not_or] at hj
      rw [hother j hj.2, get_upsert hup, if_neg hj.1]

end UniqueTable

end RowStore

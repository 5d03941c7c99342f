import Mathlib.Data.List.Perm.Lattice
import Mathlib.Data.List.Nodup
import Mathlib.Data.Int.Order.Basic
import Mathlib.Tactic.SplitIfs

/-!
# Tables that are partitioned by ranges

A partitioned table keeps a row in the partition that covers its point, and in the default partition if there is none.
A new partition is refused while the default partition has rows that belong to it.

* `PartitionedTable`: the partitions, with the constraints that the database maintains.
* `create`, `takeDefault`, `insert`, `insertAll`: the statements, with what they do to the rows that are seen through
  the table, to the bounds and to the default partition.
* `filter_rows`: the rows that a partition covers are the rows that are in it.
-/

namespace RangePartitions

/-- A partition, for the points from `low` on and before `high`. -/
structure Partition (R : Type*) where
  name : String
  low : ℤ
  high : ℤ
  rows : List R

variable {R K : Type*}

namespace Partition

/-- The partition is for this point. -/
def Covers (p : Partition R) (t : ℤ) : Prop := p.low ≤ t ∧ t < p.high

instance (p : Partition R) (t : ℤ) : Decidable (p.Covers t) := inferInstanceAs (Decidable (_ ∧ _))

/-- The name and the range of a partition. -/
def bounds (p : Partition R) : String × ℤ × ℤ := (p.name, p.low, p.high)

/-- A row is put into the partition if it is for it. -/
def put (point : R → ℤ) (r : R) (p : Partition R) : Partition R :=
  if p.Covers (point r) then { p with rows := p.rows ++ [r] } else p

variable {point : R → ℤ} {r : R} {p : Partition R}

theorem covers_of_bounds {q : Partition R} (h : p.bounds = q.bounds) {t : ℤ} : p.Covers t ↔ q.Covers t := by
  unfold bounds at h
  unfold Covers
  rw [(Prod.mk.inj (Prod.mk.inj h).2).1, (Prod.mk.inj (Prod.mk.inj h).2).2]

@[simp] theorem bounds_put : (put point r p).bounds = p.bounds := by
  unfold put
  split_ifs <;> rfl

theorem rows_put : (put point r p).rows = if p.Covers (point r) then p.rows ++ [r] else p.rows := by
  unfold put
  split_ifs <;> rfl

end Partition

/-- What the database may answer to a statement. -/
inductive PartitionError where
  /-- The table exists already. -/
  | duplicateTable
  /-- The range is empty. -/
  | invalidRange
  /-- The range overlaps that of another partition. -/
  | overlap
  /-- The default partition has rows of the range. -/
  | checkViolation
  /-- The key of a row exists already. -/
  | uniqueViolation
  deriving DecidableEq

/-- A partitioned table with a primary key. -/
structure PartitionedTable (R : Type*) {K : Type*} (point : R → ℤ) (key : R → K) where
  parts : List (Partition R)
  default : List R
  within : ∀ p ∈ parts, ∀ r ∈ p.rows, p.Covers (point r)
  outside : ∀ p ∈ parts, ∀ r ∈ default, ¬p.Covers (point r)
  disjoint : parts.Pairwise fun p q => ∀ t, p.Covers t → ¬q.Covers t
  unique : ((default ++ parts.flatMap Partition.rows).map key).Nodup

namespace PartitionedTable

variable {point : R → ℤ} {key : R → K}

/-- The rows that are seen through the table. -/
def rows (t : PartitionedTable R point key) : List R := t.default ++ t.parts.flatMap Partition.rows

/-- The names and the ranges of the partitions. -/
def bounds (t : PartitionedTable R point key) : List (String × ℤ × ℤ) := t.parts.map Partition.bounds

variable {t : PartitionedTable R point key}

theorem exists_of_mem_bounds {b : String × ℤ × ℤ} (h : b ∈ t.bounds) :
    ∃ p ∈ t.parts, p.bounds = b := List.mem_map.mp h

/-! ## A new partition -/

/-- `CREATE TABLE name PARTITION OF ... FOR VALUES FROM (low) TO (high)`. -/
def create (t : PartitionedTable R point key) (name : String) (low high : ℤ) :
    Except PartitionError (PartitionedTable R point key) :=
  if ∃ p ∈ t.parts, p.name = name then .error .duplicateTable
  else if high ≤ low then .error .invalidRange
  else if hoverlap : ∃ p ∈ t.parts, p.low < high ∧ low < p.high then .error .overlap
  else if hdefault : ∃ r ∈ t.default, low ≤ point r ∧ point r < high then .error .checkViolation
  else .ok
    { parts := ⟨name, low, high, []⟩ :: t.parts
      default := t.default
      within := by
        intro p hp r hr
        rcases List.mem_cons.mp hp with rfl | hp
        · exact absurd hr List.not_mem_nil
        · exact t.within p hp r hr
      outside := by
        intro p hp r hr
        rcases List.mem_cons.mp hp with rfl | hp
        · exact fun hcovers => hdefault ⟨r, hr, hcovers⟩
        · exact t.outside p hp r hr
      disjoint := by
        refine List.pairwise_cons.mpr ⟨fun p hp s hnew hold => hoverlap ⟨p, hp, ?_⟩, t.disjoint⟩
        unfold Partition.Covers at hnew hold
        exact ⟨lt_of_le_of_lt hold.1 hnew.2, lt_of_le_of_lt hnew.1 hold.2⟩
      unique := t.unique }

theorem exists_create {name : String} {low high : ℤ}
    (hname : ∀ p ∈ t.parts, p.name ≠ name) (hrange : low < high)
    (hapart : ∀ p ∈ t.parts, ¬(p.low < high ∧ low < p.high))
    (hdefault : ∀ r ∈ t.default, ¬(low ≤ point r ∧ point r < high)) :
    ∃ t', t.create name low high = .ok t' ∧ t'.rows = t.rows ∧ t'.default = t.default ∧
      t'.bounds = (name, low, high) :: t.bounds := by
  unfold create
  rw [if_neg (by simpa using hname), if_neg (not_le.mpr hrange),
    dif_neg (fun h => h.elim fun p hp => hapart p hp.1 hp.2),
    dif_neg (fun h => h.elim fun r hr => hdefault r hr.1 hr.2)]
  exact ⟨_, rfl, rfl, rfl, rfl⟩

/-! ## Rows of the default partition -/

/-- `DELETE FROM ONLY default WHERE low <= point AND point < high`. -/
def takeDefault (t : PartitionedTable R point key) (low high : ℤ) : PartitionedTable R point key where
  parts := t.parts
  default := t.default.filter fun r => !decide (low ≤ point r ∧ point r < high)
  within := t.within
  outside := fun p hp r hr => t.outside p hp r (List.mem_filter.mp hr).1
  disjoint := t.disjoint
  unique := t.unique.sublist ((List.filter_sublist.append_right _).map key)

theorem rows_takeDefault (t : PartitionedTable R point key) (low high : ℤ) :
    (t.default.filter (fun r => decide (low ≤ point r ∧ point r < high)) ++ (t.takeDefault low high).rows).Perm
      t.rows := by
  unfold rows takeDefault
  rw [← List.append_assoc]
  exact (List.filter_append_perm _ t.default).append_right _

/-! ## New rows -/

section Insert

variable [DecidableEq K]

theorem flatMap_put_of_none {parts : List (Partition R)} {r : R} (h : ∀ p ∈ parts, ¬p.Covers (point r)) :
    parts.map (Partition.put point r) = parts := by
  refine (List.map_congr_left fun p hp => ?_).trans (List.map_id _)
  exact if_neg (h p hp)

theorem perm_flatMap_put {parts : List (Partition R)} {r : R}
    (hdisjoint : parts.Pairwise fun p q => ∀ t, p.Covers t → ¬q.Covers t)
    (hcovered : ∃ p ∈ parts, p.Covers (point r)) :
    ((parts.map (Partition.put point r)).flatMap Partition.rows).Perm (r :: parts.flatMap Partition.rows) := by
  induction parts with
  | nil => exact absurd hcovered (by simp)
  | cons p parts ih =>
    rw [List.pairwise_cons] at hdisjoint
    rw [List.map_cons, List.flatMap_cons, List.flatMap_cons, Partition.rows_put]
    by_cases hp : p.Covers (point r)
    · rw [if_pos hp, flatMap_put_of_none fun q hq => hdisjoint.1 q hq _ hp, List.append_assoc]
      exact List.perm_middle
    · rw [if_neg hp]
      have hrest : ∃ q ∈ parts, q.Covers (point r) := by
        obtain ⟨q, hq, hcovers⟩ := hcovered
        rcases List.mem_cons.mp hq with rfl | hq
        · exact absurd hcovers hp
        · exact ⟨q, hq, hcovers⟩
      exact ((ih hdisjoint.2 hrest).append_left p.rows).trans List.perm_middle

/-- `INSERT INTO ...`, of one row. -/
def insert (t : PartitionedTable R point key) (r : R) : Except PartitionError (PartitionedTable R point key) :=
  if hkey : key r ∈ t.rows.map key then .error .uniqueViolation
  else if hcovered : ∃ p ∈ t.parts, p.Covers (point r) then .ok
    { parts := t.parts.map (Partition.put point r)
      default := t.default
      within := by
        intro p hp s hs
        obtain ⟨q, hq, rfl⟩ := List.mem_map.mp hp
        refine (Partition.covers_of_bounds Partition.bounds_put).mpr ?_
        rw [Partition.rows_put] at hs
        split_ifs at hs with hcovers
        · rcases List.mem_append.mp hs with hs | hs
          · exact t.within q hq s hs
          · exact List.mem_singleton.mp hs ▸ hcovers
        · exact t.within q hq s hs
      outside := by
        intro p hp s hs
        obtain ⟨q, hq, rfl⟩ := List.mem_map.mp hp
        exact fun hcovers => t.outside q hq s hs ((Partition.covers_of_bounds Partition.bounds_put).mp hcovers)
      disjoint := by
        refine List.pairwise_map.mpr (t.disjoint.imp fun {p q} hpq u hp hq => hpq u ?_ ?_)
        · exact (Partition.covers_of_bounds Partition.bounds_put).mp hp
        · exact (Partition.covers_of_bounds Partition.bounds_put).mp hq
      unique := by
        have hperm : (t.default ++ (t.parts.map (Partition.put point r)).flatMap Partition.rows).Perm
            (r :: t.rows) :=
          ((perm_flatMap_put t.disjoint hcovered).append_left t.default).trans List.perm_middle
        exact (hperm.map key).nodup_iff.mpr (List.nodup_cons.mpr ⟨hkey, t.unique⟩) }
  else .ok
    { parts := t.parts
      default := t.default ++ [r]
      within := t.within
      outside := by
        intro p hp s hs hcovers
        rcases List.mem_append.mp hs with hs | hs
        · exact t.outside p hp s hs hcovers
        · exact hcovered ⟨p, hp, List.mem_singleton.mp hs ▸ hcovers⟩
      disjoint := t.disjoint
      unique := by
        have hperm : ((t.default ++ [r]) ++ t.parts.flatMap Partition.rows).Perm (r :: t.rows) := by
          rw [List.append_assoc]
          exact List.perm_middle
        exact (hperm.map key).nodup_iff.mpr (List.nodup_cons.mpr ⟨hkey, t.unique⟩) }

theorem exists_insert {r : R} (hkey : key r ∉ t.rows.map key)
    (hcovered : ∃ p ∈ t.parts, p.Covers (point r)) :
    ∃ t', t.insert r = .ok t' ∧ t'.rows.Perm (r :: t.rows) ∧ t'.default = t.default ∧ t'.bounds = t.bounds := by
  unfold insert
  rw [dif_neg hkey, dif_pos hcovered]
  refine ⟨_, rfl, ?_, rfl, ?_⟩
  · exact ((perm_flatMap_put t.disjoint hcovered).append_left t.default).trans List.perm_middle
  · unfold bounds
    rw [List.map_map]
    exact List.map_congr_left fun p _ => Partition.bounds_put

/-- `INSERT INTO ... SELECT ...`. -/
def insertAll (t : PartitionedTable R point key) (rs : List R) : Except PartitionError (PartitionedTable R point key) :=
  rs.foldlM insert t

theorem exists_insertAll {rs : List R} (hkeys : ((rs ++ t.rows).map key).Nodup)
    (hcovered : ∀ r ∈ rs, ∃ b ∈ t.bounds, b.2.1 ≤ point r ∧ point r < b.2.2) :
    ∃ t', t.insertAll rs = .ok t' ∧ t'.rows.Perm (rs ++ t.rows) ∧ t'.default = t.default ∧
      t'.bounds = t.bounds := by
  induction rs generalizing t with
  | nil => exact ⟨t, rfl, List.Perm.refl _, rfl, rfl⟩
  | cons r rs ih =>
    have hfirst : ∃ p ∈ t.parts, p.Covers (point r) := by
      obtain ⟨b, hb, hcovers⟩ := hcovered r List.mem_cons_self
      obtain ⟨p, hp, rfl⟩ := exists_of_mem_bounds hb
      exact ⟨p, hp, hcovers⟩
    rw [List.cons_append, List.map_cons, List.nodup_cons] at hkeys
    obtain ⟨t₁, hinsert, hrows, hdefault, hbounds⟩ := exists_insert
      (fun h => hkeys.1 (List.map_subset _ (List.subset_append_right rs t.rows) h)) hfirst
    have hperm : (rs ++ t₁.rows).Perm (r :: (rs ++ t.rows)) := (hrows.append_left rs).trans List.perm_middle
    obtain ⟨t', hall, hrows', hdefault', hbounds'⟩ := ih (t := t₁)
      ((hperm.map key).nodup_iff.mpr (List.nodup_cons.mpr hkeys))
      (fun s hs => by rw [hbounds]; exact hcovered s (List.mem_cons_of_mem _ hs))
    refine ⟨t', ?_, hrows'.trans hperm, hdefault'.trans hdefault, hbounds'.trans hbounds⟩
    rw [insertAll, List.foldlM_cons, hinsert]
    exact hall

end Insert

/-! ## The rows of a partition -/

/-- **The rows that a partition covers** are those that are in it. -/
theorem filter_rows {p : Partition R} (hp : p ∈ t.parts) :
    t.rows.filter (fun r => decide (p.Covers (point r))) = p.rows := by
  obtain ⟨front, back, hsplit⟩ := List.append_of_mem hp
  have hdisjoint := t.disjoint
  rw [hsplit, List.pairwise_append, List.pairwise_cons] at hdisjoint
  obtain ⟨-, ⟨hback, -⟩, hfront⟩ := hdisjoint
  have hdefault : t.default.filter (fun r => decide (p.Covers (point r))) = [] :=
    List.filter_eq_nil_iff.mpr fun r hr => by simpa using t.outside p hp r hr
  have hself : p.rows.filter (fun r => decide (p.Covers (point r))) = p.rows :=
    List.filter_eq_self.mpr fun r hr => by simpa using t.within p hp r hr
  have hother : ∀ qs : List (Partition R), (∀ q ∈ qs, q ∈ t.parts ∧ ∀ u, q.Covers u → ¬p.Covers u) →
      (qs.flatMap Partition.rows).filter (fun r => decide (p.Covers (point r))) = [] := by
    intro qs hqs
    refine List.filter_eq_nil_iff.mpr fun r hr => ?_
    obtain ⟨q, hq, hr⟩ := List.mem_flatMap.mp hr
    simpa using (hqs q hq).2 _ (t.within q (hqs q hq).1 r hr)
  rw [rows, hsplit, List.flatMap_append, List.flatMap_cons, List.filter_append, List.filter_append,
    List.filter_append, hdefault, hself,
    hother front fun q hq => ⟨hsplit ▸ List.mem_append_left _ hq, hfront q hq p List.mem_cons_self⟩,
    hother back fun q hq => ⟨hsplit ▸ List.mem_append_right _ (List.mem_cons_of_mem _ hq),
      fun u hcovers hself => hback q hq u hself hcovers⟩]
  simp

end PartitionedTable

end RangePartitions

import AssetInventory.Fleet.Model
import AssetInventory.Lib.PyDate
import AssetInventory.Lib.RangePartitions

/-!
# The daily partitions of the heartbeats

A partition for each of the next days is created ahead.  Rows of such a day that are in the default partition by then
are put aside, and inserted again when the partition is there.

* `ensureHeartbeatPartitions`: the creation, within one transaction.
* `ensureDay_spec`: one day; `ensureDays_spec`: the loop over the days.
* `partitions_ensured`: no row is lost or doubled, each day has its partition with its rows, and a second call has
  nothing to do; the last date of the calendar is left out.
-/

namespace AssetInventory.Fleet

open PyTime RangePartitions Server

/-! ## The tables -/

/-- A row of `heartbeats`, as it is stored. -/
structure HeartbeatRow extends Heartbeat where
  id : ℕ
  ip : Option String
  loggedUser : Option String
  uptimeSec : Option ℤ
  deriving DecidableEq

/-- The primary key. -/
def HeartbeatRow.key (r : HeartbeatRow) : ℕ × Time := (r.id, r.ts)

/-- `heartbeats`, with `heartbeats_default`. -/
abbrev HeartbeatTree := PartitionedTable HeartbeatRow (fun r => r.ts) HeartbeatRow.key

/-- The tables that are written, with `heartbeats_deferred` if it exists. -/
structure HeartbeatDb where
  tree : HeartbeatTree
  deferred : Option (List HeartbeatRow)

/-! ## The creation -/

def partitionName (day : Date) : String := "heartbeats_" ++ day.compact

def partitionExists (tree : HeartbeatTree) (name : String) : Bool := tree.bounds.any fun b => decide (b.1 = name)

/-- The rows of the default partition from one date on and before another. -/
def defaultRows (tree : HeartbeatTree) (day nextDay : Date) : List HeartbeatRow :=
  tree.default.filter fun r => decide (dayStart day.day ≤ r.ts ∧ r.ts < dayStart nextDay.day)

def stashDefaultRows (db : HeartbeatDb) (day nextDay : Date) : HeartbeatDb × Bool :=
  if (defaultRows db.tree day nextDay).isEmpty then (db, false)
  else
    ({ tree := db.tree.takeDefault (dayStart day.day) (dayStart nextDay.day)
       deferred := some (defaultRows db.tree day nextDay) }, true)

/-- `_restore_deferred_rows`; it is called when there are such rows. -/
def restoreDeferredRows (db : HeartbeatDb) : Except PartitionError HeartbeatDb :=
  let deferred := db.deferred.getD []
  if deferred.isEmpty then .ok { db with deferred := none }
  else (db.tree.insertAll deferred).map fun tree => { tree := tree, deferred := none }

/-- What the creation may raise. -/
inductive EnsureExc where
  | overflow
  | database (e : PartitionError)
  deriving DecidableEq

def createDay (db : HeartbeatDb) (day nextDay : Date) : Except PartitionError HeartbeatDb := do
  let stash := stashDefaultRows db day nextDay
  let tree ← stash.1.tree.create (partitionName day) (dayStart day.day) (dayStart nextDay.day)
  let db := { stash.1 with tree := tree }
  if stash.2 then restoreDeferredRows db else return db

/-- One round of the loop over the days. -/
def ensureDay (start : Date) (st : HeartbeatDb × List String) (i : ℕ) :
    Except EnsureExc (HeartbeatDb × List String) :=
  match start.plus i with
  | none => .error .overflow
  | some day =>
    match day.plus 1 with
    | none => .error .overflow
    | some nextDay =>
      if partitionExists st.1.tree (partitionName day) then .ok st
      else
        match createDay st.1 day nextDay with
        | .error e => .error (.database e)
        | .ok db => .ok (db, st.2 ++ [partitionName day])

/-- The loop over the days. -/
def ensureDays (start : Date) (db : HeartbeatDb) (n : ℕ) : Except EnsureExc (HeartbeatDb × List String) :=
  (List.range n).foldlM (ensureDay start) (db, [])

/-- `ensure_heartbeat_partitions`, in a transaction that an exception rolls back. -/
def ensureHeartbeatPartitions (db : HeartbeatDb) (daysAhead : ℤ) (startDay : Option Date) (today : Date) :
    HeartbeatDb × Except EnsureExc (List String) :=
  match ensureDays (startDay.getD today) db daysAhead.toNat with
  | .ok (db', created) => (db', .ok created)
  | .error e => (db, .error e)

/-! ## One day -/

/-- The name and the range of the partition of a day. -/
def dayBounds (day : Date) : String × ℤ × ℤ := (partitionName day, dayStart day.day, dayStart (day.day + 1))

/-- All partitions but the default one are partitions of days. -/
def Daily (tree : HeartbeatTree) : Prop := ∀ b ∈ tree.bounds, ∃ day, b = dayBounds day

section Day

variable {db : HeartbeatDb} {day nextDay : Date} {d e day after : Date}

theorem partitionName_inj (h : partitionName d = partitionName e) : d.day = e.day := by
  refine Date.compact_inj (String.toList_inj.mp ?_)
  have hlist := congrArg String.toList h
  rw [partitionName, partitionName, String.toList_append, String.toList_append] at hlist
  exact List.append_cancel_left hlist

theorem dayBounds_eq (h : d.day = e.day) : dayBounds d = dayBounds e := by
  obtain ⟨day, hday⟩ := d
  cases h
  rfl

/-- In a tree of daily partitions the name of a partition says which one it is. -/
theorem partitionExists_iff (hdaily : Daily db.tree) :
    partitionExists db.tree (partitionName day) = true ↔ dayBounds day ∈ db.tree.bounds := by
  rw [partitionExists, List.any_eq_true]
  constructor
  · rintro ⟨b, hb, hname⟩
    obtain ⟨other, rfl⟩ := hdaily b hb
    rwa [dayBounds_eq (partitionName_inj (of_decide_eq_true hname)).symm]
  · exact fun h => ⟨dayBounds day, h, decide_eq_true rfl⟩

/-- A day whose partition does not exist shares neither its name nor a part of its range with another one. -/
theorem apart_of_daily (hdaily : Daily db.tree) (hnext : day.plus 1 = some nextDay)
    (hnew : dayBounds day ∉ db.tree.bounds) : ∀ p ∈ db.tree.parts, p.name ≠ partitionName day ∧
      ¬(p.low < dayStart nextDay.day ∧ dayStart day.day < p.high) := by
  intro p hp
  obtain ⟨other, hother⟩ := hdaily p.bounds (List.mem_map_of_mem hp)
  have hdiffers : day.day ≠ other.day := by
    intro hsame
    refine hnew ?_
    rw [dayBounds_eq hsame, ← hother]
    exact List.mem_map_of_mem hp
  refine ⟨fun hname => hdiffers (partitionName_inj (hname.symm.trans (congrArg Prod.fst hother))),
    fun hoverlap => ?_⟩
  have hlow : p.low = dayStart other.day := congrArg (fun b => b.2.1) hother
  have hhigh : p.high = dayStart (other.day + 1) := congrArg (fun b => b.2.2) hother
  rw [hlow, hhigh, Date.plus_eq_some_iff.mp hnext] at hoverlap
  unfold dayStart seconds at hoverlap
  omega

/-- **The partition of a day can always be created**, and every row is where it belongs. -/
theorem createDay_spec (hdaily : Daily db.tree) (hnext : day.plus 1 = some nextDay)
    (hnew : dayBounds day ∉ db.tree.bounds) :
    ∃ db', createDay db day nextDay = .ok db' ∧ db'.tree.rows.Perm db.tree.rows ∧
      db'.tree.bounds = dayBounds day :: db.tree.bounds := by
  have hapart := apart_of_daily hdaily hnext hnew
  have hrange : dayStart day.day < dayStart nextDay.day := by
    rw [Date.plus_eq_some_iff.mp hnext]
    unfold dayStart seconds
    omega
  have hbounds : (partitionName day, dayStart day.day, dayStart nextDay.day) = dayBounds day := by
    rw [dayBounds, Date.plus_eq_some_iff.mp hnext]
  unfold createDay stashDefaultRows
  by_cases hmine : (defaultRows db.tree day nextDay).isEmpty = true
  · -- no rows are in the way
    rw [if_pos hmine]
    dsimp only
    have hfree : ∀ r ∈ db.tree.default, ¬(dayStart day.day ≤ r.ts ∧ r.ts < dayStart nextDay.day) := by
      intro r hr hin
      have hmem : r ∈ defaultRows db.tree day nextDay := List.mem_filter.mpr ⟨hr, decide_eq_true hin⟩
      rw [List.isEmpty_iff.mp hmine] at hmem
      exact List.not_mem_nil hmem
    obtain ⟨tree, hcreate, hrows, -, hbounds'⟩ := PartitionedTable.exists_create (fun p hp => (hapart p hp).1)
      hrange (fun p hp => (hapart p hp).2) hfree
    refine ⟨{ db with tree := tree }, ?_, hrows ▸ List.Perm.refl _, hbounds'.trans (by rw [hbounds])⟩
    rw [hcreate]
    rfl
  · -- the rows are put aside, and come back into the new partition
    rw [if_neg hmine]
    dsimp only
    obtain ⟨tree, hcreate, hrows, -, hbounds'⟩ := PartitionedTable.exists_create
      (t := db.tree.takeDefault (dayStart day.day) (dayStart nextDay.day)) (fun p hp => (hapart p hp).1) hrange
      (fun p hp => (hapart p hp).2) fun r hr hin => by simpa [hin] using (List.mem_filter.mp hr).2
    have hperm : (defaultRows db.tree day nextDay ++ tree.rows).Perm db.tree.rows := by
      rw [hrows]
      exact PartitionedTable.rows_takeDefault db.tree (dayStart day.day) (dayStart nextDay.day)
    obtain ⟨tree', hinsert, hrows', -, hbounds''⟩ := PartitionedTable.exists_insertAll
      ((hperm.map HeartbeatRow.key).nodup_iff.mpr db.tree.unique)
      fun r hr => ⟨_, hbounds' ▸ List.mem_cons_self, of_decide_eq_true (List.mem_filter.mp hr).2⟩
    refine ⟨{ tree := tree', deferred := none }, ?_, hrows'.trans hperm,
      hbounds''.trans (hbounds'.trans (by rw [hbounds]; rfl))⟩
    rw [hcreate]
    show restoreDeferredRows _ = _
    rw [restoreDeferredRows, Option.getD_some, if_neg hmine]
    dsimp only
    rw [hinsert]
    rfl

end Day

/-! ## The loop over the days -/

/-- The same rows, and partitions of days that have been added. -/
structure Grown (db db' : HeartbeatDb) : Prop where
  rows : db'.tree.rows.Perm db.tree.rows
  bounds : ∀ b ∈ db.tree.bounds, b ∈ db'.tree.bounds
  daily : Daily db'.tree

section Days

variable {start : Date} {db : HeartbeatDb}

theorem ensureDay_spec {day : Date} {i : ℕ} {nextDay : Date} (hdaily : Daily db.tree) (hday : start.plus i = some day)
    (hnext : day.plus 1 = some nextDay) (created : List String) :
    ∃ db' created', ensureDay start (db, created) i = .ok (db', created') ∧ Grown db db' ∧
      dayBounds day ∈ db'.tree.bounds := by
  unfold ensureDay
  simp only [hday, hnext]
  by_cases hexists : partitionExists db.tree (partitionName day) = true
  · rw [if_pos hexists]
    exact ⟨db, created, rfl, ⟨List.Perm.refl _, fun _ h => h, hdaily⟩, (partitionExists_iff hdaily).mp hexists⟩
  · rw [if_neg hexists]
    obtain ⟨db', hcreate, hrows, hbounds⟩ := createDay_spec hdaily hnext
      fun h => hexists ((partitionExists_iff hdaily).mpr h)
    rw [hcreate]
    refine ⟨db', _, rfl, ⟨hrows, fun b hb => ?_, fun b hb => ?_⟩, ?_⟩
    · rw [hbounds]
      exact List.mem_cons_of_mem _ hb
    · rw [hbounds] at hb
      rcases List.mem_cons.mp hb with rfl | hb
      · exact ⟨day, rfl⟩
      · exact hdaily b hb
    · rw [hbounds]
      exact List.mem_cons_self

theorem ensureDays_succ (start : Date) (db : HeartbeatDb) (n : ℕ) :
    ensureDays start db (n + 1) = (ensureDays start db n).bind fun st => ensureDay start st n := by
  unfold ensureDays
  rw [List.range_succ, List.foldlM_append]
  cases List.foldlM (ensureDay start) (db, []) (List.range n) with
  | error e => rfl
  | ok st => exact bind_pure (ensureDay start st n)

/-- **The loop** over days that all have a next day. -/
theorem ensureDays_spec {after : Date} (hdaily : Daily db.tree) {n : ℕ} (hafter : start.plus n = some after) :
    ∃ db' created, ensureDays start db n = .ok (db', created) ∧ Grown db db' ∧
      ∀ i < n, ∃ day, start.plus i = some day ∧ dayBounds day ∈ db'.tree.bounds := by
  induction n generalizing after with
  | zero => exact ⟨db, [], rfl, ⟨List.Perm.refl _, fun _ h => h, hdaily⟩, fun i hi => absurd hi (Nat.not_lt_zero i)⟩
  | succ n ih =>
    obtain ⟨day, hday⟩ := Date.exists_plus hafter (Int.natCast_nonneg n) (by omega)
    have hnext : day.plus 1 = some after := by
      rw [Date.plus_eq_some_iff, Date.plus_eq_some_iff.mp hafter, Date.plus_eq_some_iff.mp hday]
      omega
    obtain ⟨db₁, created, hrun, hgrown, hmade⟩ := ih hday
    obtain ⟨db', created', hstep, hgrown', hnew⟩ := ensureDay_spec hgrown.daily hday hnext created
    refine ⟨db', created', ?_, ⟨hgrown'.rows.trans hgrown.rows, fun b hb => hgrown'.bounds b (hgrown.bounds b hb),
      hgrown'.daily⟩, fun i hi => ?_⟩
    · rw [ensureDays_succ, hrun]
      exact hstep
    · rcases Nat.lt_succ_iff_lt_or_eq.mp hi with hi | rfl
      · obtain ⟨d, hd, hbounds⟩ := hmade i hi
        exact ⟨d, hd, hgrown'.bounds _ hbounds⟩
      · exact ⟨day, hday, hnew⟩

theorem ensureDays_overflow (hdaily : Daily db.tree) {n : ℕ} (hafter : start.plus n = none) :
    ensureDays start db n = .error .overflow := by
  induction n with
  | zero =>
    have hself : start.plus (0 : ℕ) = some start := Date.plus_eq_some_iff.mpr (by simp)
    exact absurd (hself.symm.trans hafter) (by simp)
  | succ n ih =>
    rw [ensureDays_succ]
    cases hday : start.plus n with
    | none =>
      rw [ih hday]
      rfl
    | some day =>
      obtain ⟨db₁, created, hrun, -, -⟩ := ensureDays_spec hdaily hday
      have hnext : day.plus 1 = none := by
        cases hnext : day.plus 1 with
        | none => rfl
        | some nextDay =>
          have hover : start.plus (n + 1 : ℕ) = some nextDay := by
            rw [Date.plus_eq_some_iff, Date.plus_eq_some_iff.mp hnext, Date.plus_eq_some_iff.mp hday]
            push_cast
            omega
          exact absurd (hover.symm.trans hafter) (by simp)
      rw [hrun]
      show ensureDay start (db₁, created) n = _
      unfold ensureDay
      simp only [hday, hnext]

theorem ensureDays_again {after : Date} (hdaily : Daily db.tree) {n : ℕ} (hafter : start.plus n = some after)
    (hmade : ∀ i < n, ∃ day, start.plus i = some day ∧ dayBounds day ∈ db.tree.bounds) :
    ensureDays start db n = .ok (db, []) := by
  induction n generalizing after with
  | zero => rfl
  | succ n ih =>
    obtain ⟨day, hday, hbounds⟩ := hmade n (Nat.lt_succ_self n)
    have hnext : day.plus 1 = some after := by
      rw [Date.plus_eq_some_iff, Date.plus_eq_some_iff.mp hafter, Date.plus_eq_some_iff.mp hday]
      omega
    rw [ensureDays_succ, ih hday fun i hi => hmade i (Nat.lt_succ_of_lt hi)]
    show ensureDay start (db, []) n = _
    unfold ensureDay
    simp only [hday, hnext]
    exact if_pos ((partitionExists_iff hdaily).mpr hbounds)

end Days

/-! ## What is ensured -/

/-- No row is lost or doubled, no statement is refused, and a second call has nothing to do. -/
structure NothingMoved (db : HeartbeatDb) (daysAhead : ℤ) (startDay : Option Date) (today : Date) : Prop where
  rows : (ensureHeartbeatPartitions db daysAhead startDay today).1.tree.rows.Perm db.tree.rows
  accepted : ∀ e, (ensureHeartbeatPartitions db daysAhead startDay today).2 ≠ .error (.database e)
  again : ensureHeartbeatPartitions (ensureHeartbeatPartitions db daysAhead startDay today).1 daysAhead startDay today =
    ((ensureHeartbeatPartitions db daysAhead startDay today).1,
      (ensureHeartbeatPartitions db daysAhead startDay today).2.map fun _ => [])

/-- Each of the days has its partition, with all rows of the day, and the default partition has none of them. -/
def DaysPlaced (tree : HeartbeatTree) (daysAhead : ℤ) (start : Date) : Prop :=
  ∀ i < daysAhead.toNat, ∃ day, start.plus i = some day ∧ ∃ p ∈ tree.parts, p.bounds = dayBounds day ∧
    tree.rows.filter (fun r => decide (dayOf r.ts = day.day)) = p.rows ∧ ∀ r ∈ tree.default, dayOf r.ts ≠ day.day

theorem covers_dayBounds {day : Date} {p : Partition HeartbeatRow} (h : p.bounds = dayBounds day) (t : ℤ) :
    p.Covers t ↔ dayOf t = day.day := by
  have hlow : p.low = dayStart day.day := congrArg (fun b => b.2.1) h
  have hhigh : p.high = dayStart (day.day + 1) := congrArg (fun b => b.2.2) h
  rw [dayOf_eq_iff, Partition.Covers, hlow, hhigh]

theorem placed_of_mem_bounds {day : Date} {tree : HeartbeatTree} (h : dayBounds day ∈ tree.bounds) :
    ∃ p ∈ tree.parts, p.bounds = dayBounds day ∧
      tree.rows.filter (fun r => decide (dayOf r.ts = day.day)) = p.rows ∧
        ∀ r ∈ tree.default, dayOf r.ts ≠ day.day := by
  obtain ⟨p, hp, hbounds⟩ := PartitionedTable.exists_of_mem_bounds h
  refine ⟨p, hp, hbounds, ?_, fun r hr hday => ?_⟩
  · rw [← PartitionedTable.filter_rows hp]
    refine List.filter_congr fun r _ => ?_
    rw [decide_eq_decide, covers_dayBounds hbounds]
  · exact tree.outside p hp r hr ((covers_dayBounds hbounds _).mpr hday)

/-- **The partitions are ensured**, and nothing is moved, as long as the days have next days. -/
theorem partitions_ensured (db : HeartbeatDb) (hdaily : Daily db.tree) (daysAhead : ℤ) (startDay : Option Date)
    (today : Date) : NothingMoved db daysAhead startDay today ∧
      ((∃ after, (startDay.getD today).plus daysAhead.toNat = some after) →
        DaysPlaced (ensureHeartbeatPartitions db daysAhead startDay today).1.tree daysAhead
          (startDay.getD today)) := by
  cases hafter : (startDay.getD today).plus daysAhead.toNat with
  | none =>
    have hrun : ensureHeartbeatPartitions db daysAhead startDay today = (db, .error .overflow) := by
      rw [ensureHeartbeatPartitions, ensureDays_overflow hdaily hafter]
    refine ⟨⟨?_, fun e h => ?_, ?_⟩, fun h => absurd h (by simp)⟩
    · rw [hrun]
    · rw [hrun] at h
      cases h
    · rw [hrun, hrun]
      rfl
  | some after =>
    obtain ⟨db', created, hloop, hgrown, hmade⟩ := ensureDays_spec hdaily hafter
    have hrun : ensureHeartbeatPartitions db daysAhead startDay today = (db', .ok created) := by
      rw [ensureHeartbeatPartitions, hloop]
    have hagain : ensureHeartbeatPartitions db' daysAhead startDay today = (db', .ok []) := by
      rw [ensureHeartbeatPartitions, ensureDays_again hgrown.daily hafter hmade]
    refine ⟨⟨?_, fun e h => ?_, ?_⟩, fun _ i hi => ?_⟩
    · rw [hrun]
      exact hgrown.rows
    · rw [hrun] at h
      cases h
    · rw [hrun, hagain]
      rfl
    · obtain ⟨day, hday, hbounds⟩ := hmade i hi
      rw [hrun]
      exact ⟨day, hday, placed_of_mem_bounds hbounds⟩

/-- A tree with a row that came before its partition. -/
def lateTree : HeartbeatTree where
  parts := []
  default := [⟨⟨7, seconds 1790899200⟩, 1, none, none, none⟩]
  within := by simp
  outside := by simp
  disjoint := List.Pairwise.nil
  unique := by simp

theorem partitions_ensured_week : NothingMoved ⟨lateTree, none⟩ 7 (some ⟨20728, by decide⟩) ⟨20728, by decide⟩ ∧
    DaysPlaced (ensureHeartbeatPartitions ⟨lateTree, none⟩ 7 (some ⟨20728, by decide⟩) ⟨20728, by decide⟩).1.tree 7
      ⟨20728, by decide⟩ := by
  have hdaily : Daily lateTree := fun b hb => absurd hb List.not_mem_nil
  obtain ⟨hmoved, hplaced⟩ := partitions_ensured ⟨lateTree, none⟩ hdaily 7 (some ⟨20728, by decide⟩)
    ⟨20728, by decide⟩
  exact ⟨hmoved, hplaced ⟨⟨20735, by decide⟩, Date.plus_eq_some_iff.mpr rfl⟩⟩

theorem last_date_unplaced : ¬∀ (db : HeartbeatDb) (daysAhead : ℤ) (startDay : Option Date) (today : Date),
    Daily db.tree → NothingMoved db daysAhead startDay today ∧
      DaysPlaced (ensureHeartbeatPartitions db daysAhead startDay today).1.tree daysAhead (startDay.getD today) := by
  intro h
  have hdaily : Daily lateTree := fun b hb => absurd hb List.not_mem_nil
  obtain ⟨-, hplaced⟩ := h ⟨lateTree, none⟩ 1 (some ⟨2932896, by decide⟩) ⟨2932896, by decide⟩ hdaily
  obtain ⟨day, -, p, hp, -⟩ := hplaced 0 (by decide)
  have hrun : ensureHeartbeatPartitions ⟨lateTree, none⟩ 1 (some ⟨2932896, by decide⟩) ⟨2932896, by decide⟩ =
      (⟨lateTree, none⟩, .error .overflow) := by
    rw [ensureHeartbeatPartitions, ensureDays_overflow hdaily (dif_neg (by decide))]
  rw [hrun] at hp
  exact List.not_mem_nil hp

end AssetInventory.Fleet

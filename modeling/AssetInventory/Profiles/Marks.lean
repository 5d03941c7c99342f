import AssetInventory.Profiles.Dossier

/-!
# Profiles as dossiers

* `marksOf`, `dossierOf`: the dossier that the tables hold for a profile.
* `Consistent`: a profile has one row for a requirement, a row belongs to a profile, and keys are drawn
  once.
* `Edited`, `Created`, `RowChanged`, `Inserted`, `Removed`, `Deleted`: what the writes of a request do to
  the tables.  Each keeps the tables consistent, and changes one dossier.
-/

namespace AssetInventory.Profiles

open RowStore Server

/-- How far a requirement of a profile is. -/
def marksOf (data : Data) (profileId requirementId : Uuid) : Option RequirementStatus :=
  ((requirementsFor data profileId requirementId).head?).map fun x => x.2.status

/-- **The dossier of a profile.** -/
def dossierOf (data : Data) (profileId : Uuid) : Option (Dossier Uuid) :=
  (data.profiles.get profileId).map fun row => ⟨row.status, row.level, marksOf data profileId⟩

/-- An entry of the catalogue is active, and for the level. -/
def isActiveFor (data : Data) (level : ℤ) (requirementId : Uuid) : Bool :=
  (data.catalogue.get requirementId).any fun r => decide (r.level = level) && r.isActive

/-- The tables, when so many numbers have been drawn. -/
structure Consistent (data : Data) (drawn : ℕ) : Prop where
  oneRow : ∀ j k r s, data.requirements.get j = some r → data.requirements.get k = some s →
    r.profileId = s.profileId → r.requirementId = s.requirementId → j = k
  profile : ∀ k r, data.requirements.get k = some r → data.profiles.get r.profileId ≠ none
  drawnProfile : ∀ k, data.profiles.get k ≠ none → k < drawn
  drawnRow : ∀ k, data.requirements.get k ≠ none → k < drawn

section Queries

variable {data : Data} {drawn : ℕ}

theorem mem_activeEntries {level : ℤ} {id : Uuid} :
    id ∈ (activeEntries data level).map Prod.fst ↔ isActiveFor data level id = true := by
  rw [isActiveFor, Option.any_eq_true]
  constructor
  · intro h
    obtain ⟨⟨k, r⟩, hmem, rfl⟩ := List.mem_map.mp h
    exact ⟨r, Table.mem_rowsWhere.mp hmem⟩
  · rintro ⟨r, hr⟩
    exact List.mem_map.mpr ⟨(id, r), Table.mem_rowsWhere.mpr hr, rfl⟩

variable {p k q : Uuid} {r : ProfileRequirement}

theorem mem_requirementsOf :
    (k, r) ∈ requirementsOf data p ↔ data.requirements.get k = some r ∧ r.profileId = p := by
  rw [requirementsOf, Table.mem_rowsWhere, decide_eq_true_iff]

theorem mem_requirementsFor : (k, r) ∈ requirementsFor data p q ↔
      data.requirements.get k = some r ∧ r.profileId = p ∧ r.requirementId = q := by
  rw [requirementsFor, Table.mem_rowsWhere, decide_eq_true_iff]

theorem Consistent.requirementsFor_cases (h : Consistent data drawn) (p q : Uuid) :
    requirementsFor data p q = [] ∨ ∃ x, requirementsFor data p q = [x] := by
  have hnodup : ((requirementsFor data p q).map Prod.fst).Nodup := data.requirements.nodup_rowsWhere _
  match hrows : requirementsFor data p q with
  | [] => exact Or.inl rfl
  | [x] => exact Or.inr ⟨x, rfl⟩
  | x :: y :: rest =>
    have hx : x ∈ requirementsFor data p q := by
      rw [hrows]
      exact List.mem_cons_self
    have hy : y ∈ requirementsFor data p q := by
      rw [hrows]
      exact List.mem_cons_of_mem _ List.mem_cons_self
    obtain ⟨hx, hxp, hxq⟩ := mem_requirementsFor.mp hx
    obtain ⟨hy, hyp, hyq⟩ := mem_requirementsFor.mp hy
    have hxy := h.oneRow _ _ _ _ hx hy (hxp.trans hyp.symm) (hxq.trans hyq.symm)
    rw [hrows, List.map_cons, List.map_cons, List.nodup_cons] at hnodup
    exact absurd (hxy ▸ List.mem_cons_self) hnodup.1

/-- **The mark of a requirement** is the status of its row. -/
theorem Consistent.marksOf_eq_some (h : Consistent data drawn) {s : RequirementStatus} :
    marksOf data p q = some s ↔ ∃ k r, data.requirements.get k = some r ∧ r.profileId = p ∧
      r.requirementId = q ∧ r.status = s := by
  have hmem : (∃ k r, data.requirements.get k = some r ∧ r.profileId = p ∧ r.requirementId = q ∧
      r.status = s) ↔ ∃ x ∈ requirementsFor data p q, x.2.status = s := by
    constructor
    · rintro ⟨k, r, hr, hp, hq, hs⟩
      exact ⟨(k, r), mem_requirementsFor.mpr ⟨hr, hp, hq⟩, hs⟩
    · rintro ⟨⟨k, r⟩, hmem, hs⟩
      obtain ⟨hr, hp, hq⟩ := mem_requirementsFor.mp hmem
      exact ⟨k, r, hr, hp, hq, hs⟩
  rw [hmem, marksOf]
  rcases h.requirementsFor_cases p q with hnil | ⟨x, hx⟩
  · rw [hnil]
    simp
  · rw [hx]
    simp

theorem marksOf_eq_none : marksOf data p q = none ↔ requirementsFor data p q = [] := by
  rw [marksOf, Option.map_eq_none_iff, List.head?_eq_none_iff]

theorem Consistent.marksOf_of_none (h : Consistent data drawn)
    (hp : data.profiles.get p = none) : marksOf data p = fun _ => none := by
  ext q s
  refine iff_of_false (fun hs => ?_) (fun hs => by cases hs)
  obtain ⟨k, r, hr, rfl, -⟩ := h.marksOf_eq_some.mp hs
  exact h.profile k r hr hp

theorem Consistent.mono (h : Consistent data drawn) {drawn' : ℕ} (hle : drawn ≤ drawn') :
    Consistent data drawn' where
  oneRow := h.oneRow
  profile := h.profile
  drawnProfile k hk := lt_of_lt_of_le (h.drawnProfile k hk) hle
  drawnRow k hk := lt_of_lt_of_le (h.drawnRow k hk) hle

end Queries

section Writes

variable {d d' : Data} {drawn : ℕ}

theorem marksOf_congr (h : d'.requirements = d.requirements) : marksOf d' = marksOf d := by
  funext p q
  rw [marksOf, marksOf, requirementsFor, requirementsFor, h]

theorem dossierOf_congr (hprofiles : d'.profiles.get = d.profiles.get)
    (hrequirements : d'.requirements = d.requirements) : dossierOf d' = dossierOf d := by
  funext p
  rw [dossierOf, dossierOf, hprofiles, marksOf_congr hrequirements]

/-- Tables with the same rows of profiles are consistent, whichever of the profiles there are. -/
theorem Consistent.of_profiles (h : Consistent d drawn)
    (hrequirements : d'.requirements = d.requirements)
    (hprofiles : ∀ k, d'.profiles.get k ≠ none ↔ d.profiles.get k ≠ none) : Consistent d' drawn where
  oneRow := hrequirements ▸ h.oneRow
  profile k r hr := (hprofiles _).mpr (h.profile k r (hrequirements ▸ hr))
  drawnProfile k hk := h.drawnProfile k ((hprofiles k).mp hk)
  drawnRow := hrequirements ▸ h.drawnRow

/-! ### An edit -/

/-- A profile has been changed. -/
structure Edited (d d' : Data) (id : Uuid) (cur : SystemProfile) : Prop where
  profile : d'.profiles.get id = some cur
  others : ∀ j, j ≠ id → d'.profiles.get j = d.profiles.get j
  requirements : d'.requirements = d.requirements
  catalogue : d'.catalogue = d.catalogue

section Edited

variable {id : Uuid} {base cur : SystemProfile}

theorem Edited.consistent (h : Edited d d' id cur) (hbase : d.profiles.get id = some base)
    (hd : Consistent d drawn) : Consistent d' drawn := by
  refine hd.of_profiles h.requirements fun k => ?_
  by_cases hk : k = id
  · rw [hk, h.profile, hbase]
    exact iff_of_true (Option.some_ne_none _) (Option.some_ne_none _)
  · rw [h.others k hk]

theorem Edited.dossier (h : Edited d d' id cur) :
    dossierOf d' id = some ⟨cur.status, cur.level, marksOf d id⟩ := by
  rw [dossierOf, h.profile, marksOf_congr h.requirements]
  rfl

theorem Edited.dossier_of_ne {p : Uuid} (h : Edited d d' id cur) (hp : p ≠ id) :
    dossierOf d' p = dossierOf d p := by
  rw [dossierOf, dossierOf, h.others p hp, marksOf_congr h.requirements]

end Edited

/-! ### A new profile -/

/-- A profile has been inserted. -/
structure Created (d d' : Data) (id : Uuid) (row : SystemProfile) : Prop where
  fresh : d.profiles.get id = none
  edited : Edited d d' id row

section Created

variable {id : Uuid} {row : SystemProfile}

theorem Created.consistent (h : Created d d' id row) (hd : Consistent d drawn) (hid : id < drawn) :
    Consistent d' drawn where
  oneRow := h.edited.requirements ▸ hd.oneRow
  profile k r hr := by
    have hp := hd.profile k r (h.edited.requirements ▸ hr)
    have hk : r.profileId ≠ id := fun hk => hp (by rw [hk]; exact h.fresh)
    rwa [h.edited.others _ hk]
  drawnProfile k hk := by
    by_cases hkid : k = id
    · exact hkid ▸ hid
    · exact hd.drawnProfile k (by rwa [← h.edited.others k hkid])
  drawnRow := h.edited.requirements ▸ hd.drawnRow

end Created

/-! ### A row -/

/-- The status of a row has been changed. -/
structure RowChanged (d d' : Data) (id : Uuid) (base cur : ProfileRequirement) : Prop where
  before : d.requirements.get id = some base
  row : d'.requirements.get id = some cur
  others : ∀ j, j ≠ id → d'.requirements.get j = d.requirements.get j
  profiles : d'.profiles = d.profiles
  profileId : cur.profileId = base.profileId
  requirementId : cur.requirementId = base.requirementId

section RowChanged

variable {id : Uuid} {base cur : ProfileRequirement}

theorem RowChanged.old {k : Uuid} {r : ProfileRequirement} (h : RowChanged d d' id base cur)
    (hr : d'.requirements.get k = some r) : ∃ s, d.requirements.get k = some s ∧
      s.profileId = r.profileId ∧ s.requirementId = r.requirementId := by
  by_cases hk : k = id
  · rw [hk, h.row] at hr
    obtain rfl := Option.some.inj hr
    exact ⟨base, hk ▸ h.before, h.profileId.symm, h.requirementId.symm⟩
  · exact ⟨r, by rw [← h.others k hk]; exact hr, rfl, rfl⟩

theorem RowChanged.consistent (h : RowChanged d d' id base cur) (hd : Consistent d drawn) :
    Consistent d' drawn where
  oneRow j k r s hr hs hp hq := by
    obtain ⟨r', hr', hrp, hrq⟩ := h.old hr
    obtain ⟨s', hs', hsp, hsq⟩ := h.old hs
    exact hd.oneRow j k r' s' hr' hs' (by rw [hrp, hp, hsp]) (by rw [hrq, hq, hsq])
  profile k r hr := by
    obtain ⟨s, hs, hp, -⟩ := h.old hr
    rw [h.profiles, ← hp]
    exact hd.profile k s hs
  drawnProfile := h.profiles ▸ hd.drawnProfile
  drawnRow k hk := by
    obtain ⟨r, hr⟩ := Option.ne_none_iff_exists'.mp hk
    obtain ⟨s, hs, -⟩ := h.old hr
    exact hd.drawnRow k (by rw [hs]; exact Option.some_ne_none s)

theorem RowChanged.marks (h : RowChanged d d' id base cur) (hd : Consistent d drawn) :
    marksOf d' base.profileId =
      Function.update (marksOf d base.profileId) base.requirementId (some cur.status) := by
  have hd' := h.consistent hd
  ext q s
  rw [hd'.marksOf_eq_some]
  by_cases hq : q = base.requirementId
  · rw [hq, Function.update_self]
    constructor
    · rintro ⟨k, r, hr, hp, hrq, rfl⟩
      obtain rfl := hd'.oneRow k id r cur hr h.row (hp.trans h.profileId.symm)
        (hrq.trans h.requirementId.symm)
      rw [h.row] at hr
      rw [Option.some.inj hr]
    · intro hs
      exact ⟨id, cur, h.row, h.profileId, h.requirementId, Option.some.inj hs⟩
  · rw [Function.update_of_ne hq, hd.marksOf_eq_some]
    refine exists_congr fun k => exists_congr fun r => ?_
    by_cases hk : k = id
    · rw [hk, h.row, h.before]
      refine iff_of_false ?_ ?_
      · rintro ⟨hr, -, hrq, -⟩
        obtain rfl := Option.some.inj hr
        exact hq (hrq.symm.trans h.requirementId)
      · rintro ⟨hr, -, hrq, -⟩
        obtain rfl := Option.some.inj hr
        exact hq hrq.symm
    · rw [h.others k hk]

theorem RowChanged.marks_of_ne {p : Uuid} (h : RowChanged d d' id base cur) (hd : Consistent d drawn)
    (hp : p ≠ base.profileId) : marksOf d' p = marksOf d p := by
  have hd' := h.consistent hd
  ext q s
  rw [hd'.marksOf_eq_some, hd.marksOf_eq_some]
  refine exists_congr fun k => exists_congr fun r => ?_
  by_cases hk : k = id
  · rw [hk, h.row, h.before]
    refine iff_of_false ?_ ?_
    · rintro ⟨hr, hrp, -⟩
      obtain rfl := Option.some.inj hr
      exact hp (hrp.symm.trans h.profileId)
    · rintro ⟨hr, hrp, -⟩
      obtain rfl := Option.some.inj hr
      exact hp hrp.symm
  · rw [h.others k hk]

end RowChanged

/-! ### New rows -/

/-- Rows for some requirements have been inserted. -/
structure Inserted (d d' : Data) (p : Uuid) (ids : List Uuid) : Prop where
  profiles : d'.profiles = d.profiles
  catalogue : d'.catalogue = d.catalogue
  old : ∀ k r, d.requirements.get k = some r → d'.requirements.get k = some r
  marks : ∀ q, marksOf d' p q = if q ∈ ids then some .pending else marksOf d p q
  others : ∀ j, j ≠ p → marksOf d' j = marksOf d j

theorem Inserted.nil (d : Data) (p : Uuid) : Inserted d d p [] where
  profiles := rfl
  catalogue := rfl
  old _ _ h := h
  marks q := by simp
  others _ _ := rfl

theorem Inserted.trans {p q : Uuid} {d'' : Data} {ids : List Uuid} (h : Inserted d d' p [q])
    (h' : Inserted d' d'' p ids) : Inserted d d'' p (q :: ids) where
  profiles := h'.profiles.trans h.profiles
  catalogue := h'.catalogue.trans h.catalogue
  old k r hr := h'.old k r (h.old k r hr)
  marks r := by
    rw [h'.marks, h.marks]
    by_cases hr : r ∈ ids
    · rw [if_pos hr, if_pos (List.mem_cons_of_mem _ hr)]
    · rw [if_neg hr]
      by_cases hq : r = q
      · rw [if_pos (List.mem_singleton.mpr hq), if_pos (hq ▸ List.mem_cons_self)]
      · rw [if_neg fun hmem => hq (List.mem_singleton.mp hmem), if_neg fun hmem => ?_]
        exact (List.mem_cons.mp hmem).elim hq hr
  others j hj := (h'.others j hj).trans (h.others j hj)

section NewRow

variable {id : Uuid} {row : ProfileRequirement}

/-- The tables with a row that has not been there. -/
def withRow (d : Data) (id : Uuid) (row : ProfileRequirement) : Data :=
  { d with requirements := d.requirements.insert id row }

theorem Consistent.withRow (hd : Consistent d drawn) (hid : id < drawn)
    (hprofile : d.profiles.get row.profileId ≠ none)
    (hnone : requirementsFor d row.profileId row.requirementId = []) :
    Consistent (withRow d id row) drawn := by
  have hpair : ∀ k r, d.requirements.get k = some r → r.profileId = row.profileId →
      r.requirementId ≠ row.requirementId := by
    intro k r hr hp hq
    have hmem := mem_requirementsFor.mpr ⟨hr, hp, hq⟩
    rw [hnone] at hmem
    exact List.not_mem_nil hmem
  refine ⟨fun j k r s hr hs hp hq => ?_, fun k r hr => ?_, hd.drawnProfile, fun k hk => ?_⟩
  · rcases Table.get_insert_cases hr with ⟨rfl, rfl, -⟩ | hr'
    · rcases Table.get_insert_cases hs with ⟨rfl, -, -⟩ | hs'
      · rfl
      · exact absurd hq.symm (hpair k s hs' hp.symm)
    · rcases Table.get_insert_cases hs with ⟨rfl, rfl, -⟩ | hs'
      · exact absurd hq (hpair j r hr' hp)
      · exact hd.oneRow j k r s hr' hs' hp hq
  · rcases Table.get_insert_cases hr with ⟨-, rfl, -⟩ | hr
    · exact hprofile
    · exact hd.profile k r hr
  · obtain ⟨r, hr⟩ := Option.ne_none_iff_exists'.mp hk
    rcases Table.get_insert_cases hr with ⟨rfl, -, -⟩ | hr
    · exact hid
    · exact hd.drawnRow k (by rw [hr]; exact Option.some_ne_none r)

theorem inserted_withRow (hd : Consistent d drawn) (hid : id < drawn)
    (hfresh : d.requirements.get id = none) (hprofile : d.profiles.get row.profileId ≠ none)
    (hnone : requirementsFor d row.profileId row.requirementId = []) (hrow : row.status = .pending) :
    Inserted d (withRow d id row) row.profileId [row.requirementId] := by
  have hd' := hd.withRow hid hprofile hnone
  have hold : ∀ k r, d.requirements.get k = some r → (withRow d id row).requirements.get k = some r :=
    fun k r hr => Table.get_insert_of_get hr
  have hself : (withRow d id row).requirements.get id = some row := Table.get_insert_self row hfresh
  -- a mark of another requirement is that of an old row
  have hmarks : ∀ p q, ¬ (p = row.profileId ∧ q = row.requirementId) →
      marksOf (withRow d id row) p q = marksOf d p q := by
    intro p q hpq
    ext s
    rw [hd'.marksOf_eq_some, hd.marksOf_eq_some]
    constructor
    · rintro ⟨k, r, hr, rfl, rfl, hs⟩
      rcases Table.get_insert_cases hr with ⟨-, rfl, -⟩ | hr
      · exact absurd ⟨rfl, rfl⟩ hpq
      · exact ⟨k, r, hr, rfl, rfl, hs⟩
    · rintro ⟨k, r, hr, h⟩
      exact ⟨k, r, hold k r hr, h⟩
  refine ⟨rfl, rfl, hold, fun q => ?_, fun j hj => ?_⟩
  · by_cases hq : q = row.requirementId
    · rw [if_pos (List.mem_singleton.mpr hq)]
      exact hd'.marksOf_eq_some.mpr ⟨id, row, hself, rfl, hq.symm, hrow⟩
    · rw [if_neg fun hmem => hq (List.mem_singleton.mp hmem)]
      exact hmarks _ q fun h => hq h.2
  · ext q
    rw [hmarks j q fun h => hj h.1]

end NewRow

/-! ### Rows that are deleted -/

/-- Some rows have been deleted. -/
structure Removed (d d' : Data) (ids : List Uuid) : Prop where
  profiles : d'.profiles = d.profiles
  catalogue : d'.catalogue = d.catalogue
  rows : ∀ k, d'.requirements.get k = if k ∈ ids then none else d.requirements.get k

theorem Removed.get_eq_some {k : Uuid} {r : ProfileRequirement} {ids : List Uuid}
    (h : Removed d d' ids) :
    d'.requirements.get k = some r ↔ k ∉ ids ∧ d.requirements.get k = some r := by
  rw [h.rows]
  by_cases hk : k ∈ ids
  · rw [if_pos hk]
    exact iff_of_false (fun hr => by cases hr) fun hr => hr.1 hk
  · rw [if_neg hk]
    exact (and_iff_right hk).symm

theorem Removed.consistent {ids : List Uuid} (h : Removed d d' ids) (hd : Consistent d drawn) :
    Consistent d' drawn where
  oneRow j k r s hr hs := hd.oneRow j k r s (h.get_eq_some.mp hr).2 (h.get_eq_some.mp hs).2
  profile k r hr := by
    rw [h.profiles]
    exact hd.profile k r (h.get_eq_some.mp hr).2
  drawnProfile := h.profiles ▸ hd.drawnProfile
  drawnRow k hk := by
    obtain ⟨r, hr⟩ := Option.ne_none_iff_exists'.mp hk
    exact hd.drawnRow k (by rw [(h.get_eq_some.mp hr).2]; exact Option.some_ne_none r)

/-- **The rows of a profile after a synchronisation.** -/
structure Synced (d d' : Data) (p : Uuid) (active : Uuid → Bool) : Prop where
  profiles : d'.profiles = d.profiles
  marks : marksOf d' p = syncMarks active (marksOf d p)
  others : ∀ j, j ≠ p → marksOf d' j = marksOf d j

/-- New rows for the requirements that have none, and then no rows for those that are not required. -/
theorem synced_of_inserted {p : Uuid} {d'' : Data} {drawn' : ℕ} {active : Uuid → Bool}
    {new old : List Uuid} (hd : Consistent d drawn) (hd' : Consistent d' drawn')
    (hinserted : Inserted d d' p new)
    (hremoved : Removed d' d'' old) (hnew : ∀ q, q ∈ new ↔ active q = true ∧ marksOf d p q = none)
    (hold : ∀ k, k ∈ old ↔ ∃ r, d.requirements.get k = some r ∧ r.profileId = p ∧
      active r.requirementId = false) : Synced d d'' p active := by
  have hd'' := hremoved.consistent hd'
  -- a row that is deleted is one that was there
  have hrow : ∀ {k r}, k ∈ old → d'.requirements.get k = some r →
      r.profileId = p ∧ active r.requirementId = false := by
    intro k r hk hr
    obtain ⟨s, hs, hp, hq⟩ := (hold k).mp hk
    rw [hinserted.old k s hs] at hr
    obtain rfl := Option.some.inj hr
    exact ⟨hp, hq⟩
  have hmarks : ∀ j q, (j = p → active q = true) → marksOf d'' j q = marksOf d' j q := by
    intro j q hactive
    ext s
    rw [hd''.marksOf_eq_some, hd'.marksOf_eq_some]
    refine exists_congr fun k => exists_congr fun r => ?_
    rw [hremoved.get_eq_some, and_assoc]
    refine and_iff_right_of_imp ?_
    rintro ⟨hr, rfl, rfl, -⟩ hk
    obtain ⟨hp, hq⟩ := hrow hk hr
    rw [hactive hp] at hq
    cases hq
  refine ⟨hremoved.profiles.trans hinserted.profiles, ?_, fun j hj => ?_⟩
  · funext q
    rw [syncMarks]
    cases hactive : active q with
    | true =>
      rw [hmarks p q fun _ => hactive, hinserted.marks]
      cases hmark : marksOf d p q with
      | none => rw [if_pos ((hnew q).mpr ⟨hactive, hmark⟩)]; rfl
      | some s =>
        rw [if_neg fun hmem => ?_]
        · rfl
        · rw [((hnew q).mp hmem).2] at hmark
          cases hmark
    | false =>
      rw [if_neg Bool.false_ne_true]
      refine Option.eq_none_iff_forall_not_mem.mpr fun s hs => ?_
      obtain ⟨k, r, hr, hp, hq, -⟩ := hd''.marksOf_eq_some.mp hs
      obtain ⟨hk, hr'⟩ := hremoved.get_eq_some.mp hr
      -- the requirement is not a new one, so its row is old, and has been deleted
      have hmark : marksOf d' p q = marksOf d p q := by
        rw [hinserted.marks, if_neg fun hmem => ?_]
        rw [((hnew q).mp hmem).1] at hactive
        cases hactive
      have hs' : marksOf d p q = some r.status := by
        rw [← hmark]
        exact hd'.marksOf_eq_some.mpr ⟨k, r, hr', hp, hq, rfl⟩
      obtain ⟨j, t, ht, htp, htq, -⟩ := hd.marksOf_eq_some.mp hs'
      have hjk := hd'.oneRow j k t r (hinserted.old j t ht) hr' (htp.trans hp.symm) (htq.trans hq.symm)
      exact hk ((hold k).mpr ⟨t, hjk ▸ ht, htp, htq ▸ hactive⟩)
  · funext q
    rw [hmarks j q fun hp => absurd hp hj, hinserted.others j hj]

/-! ### A profile that is deleted -/

/-- A profile has been deleted with its rows. -/
structure Deleted (d d' : Data) (p : Uuid) : Prop where
  profile : d'.profiles.get p = none
  others : ∀ j, j ≠ p → d'.profiles.get j = d.profiles.get j
  rows : ∀ k r, d'.requirements.get k = some r ↔ d.requirements.get k = some r ∧ r.profileId ≠ p

theorem Deleted.consistent {p : Uuid} (h : Deleted d d' p) (hd : Consistent d drawn) :
    Consistent d' drawn where
  oneRow j k r s hr hs := hd.oneRow j k r s ((h.rows j r).mp hr).1 ((h.rows k s).mp hs).1
  profile k r hr := by
    obtain ⟨hr, hp⟩ := (h.rows k r).mp hr
    rw [h.others _ hp]
    exact hd.profile k r hr
  drawnProfile k hk := by
    by_cases hkp : k = p
    · exact absurd (hkp ▸ h.profile) hk
    · exact hd.drawnProfile k (by rwa [← h.others k hkp])
  drawnRow k hk := by
    obtain ⟨r, hr⟩ := Option.ne_none_iff_exists'.mp hk
    exact hd.drawnRow k (by rw [((h.rows k r).mp hr).1]; exact Option.some_ne_none r)

theorem Deleted.dossier {p : Uuid} (h : Deleted d d' p) : dossierOf d' p = none := by
  rw [dossierOf, h.profile]
  rfl

theorem Deleted.dossier_of_ne {p : Uuid} (h : Deleted d d' p) (hd : Consistent d drawn) {j : Uuid}
    (hj : j ≠ p) : dossierOf d' j = dossierOf d j := by
  have hmarks : marksOf d' j = marksOf d j := by
    ext q s
    rw [(h.consistent hd).marksOf_eq_some, hd.marksOf_eq_some]
    refine exists_congr fun k => exists_congr fun r => ?_
    rw [h.rows, and_assoc]
    refine and_congr_right fun _ => and_iff_right_of_imp ?_
    rintro ⟨rfl, -⟩
    exact hj
  rw [dossierOf, dossierOf, h.others j hj, hmarks]

end Writes

end AssetInventory.Profiles

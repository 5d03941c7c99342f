import AssetInventory.Profiles.Marks
import AssetInventory.Profiles.Routes

/-!
# What a request does to the dossiers

A request that is served while no other one runs changes at most one dossier, and by one of the steps that
dossiers take.

* `Settled`: between two transactions of a request.
* `keeps_loadProfile`, `keeps_commitProfile`, `keeps_syncProfile` and so on: what the parts of the routes
  read, and what they leave.
* `Relevels`: the request changes the level of a profile.
* `step_of_serve`: a request keeps the tables consistent, and every dossier takes a step.
-/

namespace AssetInventory.Profiles

open PyJson PyTime Orm RowStore ReadCommitted Server Interleaving

/-- What a request has done so far. -/
abbrev Progress := Alone Data DataWrite Env

/-- Nothing is pending, and the tables are these. -/
structure Settled (d : Data) (x : Progress) : Prop where
  data : x.data = d
  pending : x.pending = []
  consistent : Consistent d x.drawn

/-- The same profiles, rows and catalogue. -/
structure SameRows (d d' : Data) : Prop where
  profiles : d'.profiles = d.profiles
  requirements : d'.requirements = d.requirements
  catalogue : d'.catalogue = d.catalogue

/-- The session has what the tables hold of the profile. -/
structure Loads (d : Data) (p : Uuid) (loaded : LoadedProfile) : Prop where
  profile : d.profiles.get p = some loaded.profile
  rows : ∀ k r, (∃ e ∈ loaded.requirements, e.id = k ∧ e.row = r) ↔
    d.requirements.get k = some r ∧ r.profileId = p

section SameRows

variable {d d' d'' : Data} {p : Uuid} {row : SystemProfile}

theorem SameRows.edited (h : SameRows d d') (hp : d.profiles.get p = some row) : Edited d d' p row :=
  ⟨by rw [h.profiles, hp], fun j _ => by rw [h.profiles], h.requirements, h.catalogue⟩

theorem Edited.sameRows (h : Edited d d' p row) (h' : SameRows d' d'') : Edited d d'' p row :=
  ⟨by rw [h'.profiles, h.profile], fun j hj => by rw [h'.profiles, h.others j hj],
    h'.requirements.trans h.requirements, h'.catalogue.trans h.catalogue⟩

theorem RowChanged.sameRows {id : Uuid} {base cur : ProfileRequirement}
    (h : RowChanged d d' id base cur) (h' : SameRows d' d'') : RowChanged d d'' id base cur :=
  ⟨h.before, by rw [h'.requirements, h.row], fun j hj => by rw [h'.requirements, h.others j hj],
    h'.profiles.trans h.profiles, h.profileId, h.requirementId⟩

end SameRows

section Parts

variable {d : Data} {x : Progress} {I : Data → Prop}

theorem Settled.view (hx : Settled d x) : x.view = d := by
  rw [Alone.view, hx.pending, hx.data]
  rfl

theorem Settled.ask (hx : Settled d x) (answers : ℕ → Env) :
    Settled d { x with answers := answers } := ⟨hx.data, hx.pending, hx.consistent⟩

theorem settled_view (h : Consistent x.view x.drawn) :
    Settled x.view { x with data := x.view, pending := [] } := ⟨rfl, rfl, h⟩

/-! ## Reading -/

theorem keeps_loadProfile {Q : Option LoadedProfile → Progress → Prop} (p : Uuid) (hx : Settled d x)
    (hnone : d.profiles.get p = none → Q none x)
    (hsome : ∀ loaded y, Loads d p loaded → Settled d y → Q (some loaded) y) :
    (loadProfile p).CommitsKeep I Q x := by
  refine keeps_select _ ?_
  rw [hx.view]
  cases hp : d.profiles.get p with
  | none => exact keeps_pure (hnone hp)
  | some profile =>
    refine keeps_answer _ (keeps_select _ (keeps_select _ (keeps_select _ (keeps_pure ?_))))
    have hview : ({ x with answers := fun i => x.answers (i + 1) } : Progress).view = d := hx.view
    refine hsome _ _ ⟨hp, fun k r => ?_⟩ (hx.ask _)
    rw [hview, ← mem_requirementsOf]
    constructor
    · rintro ⟨e, he, rfl, rfl⟩
      obtain ⟨y, hy, rfl⟩ := List.mem_map.mp he
      exact mem_inOrder.mp hy
    · intro hmem
      exact ⟨_, List.mem_map.mpr ⟨(k, r), mem_inOrder.mpr hmem, rfl⟩, rfl, rfl⟩

variable {Q : Except HttpError LoadedProfile → Progress → Prop}

theorem keeps_getProfileScoped (p : Uuid)
    (user : User) (hx : Settled d x) (herror : ∀ e y, Settled d y → Q (.error e) y)
    (hok : ∀ loaded y, Loads d p loaded → Settled d y → Q (.ok loaded) y) :
    (getProfileScoped p user).CommitsKeep I Q x := by
  refine Prog.CommitsKeep.bind (keeps_loadProfile p hx ?_ fun loaded y hloaded hy => ?_)
  · exact fun _ => keeps_pure (herror _ x hx)
  · refine keeps_select _ ?_
    split
    · exact keeps_pure (herror _ y hy)
    · exact keeps_pure (hok loaded y hloaded hy)

theorem keeps_getProfileMutable (p : Uuid)
    (user : User) (hx : Settled d x) (herror : ∀ e y, Settled d y → Q (.error e) y)
    (hok : ∀ loaded y, Loads d p loaded → Settled d y → Q (.ok loaded) y) :
    (getProfileMutable p user).CommitsKeep I Q x := by
  refine Prog.CommitsKeep.bind (keeps_getProfileScoped p user hx ?_ fun loaded y hloaded hy => ?_)
  · exact fun e y hy => keeps_pure (herror e y hy)
  · dsimp only
    split
    · exact keeps_pure (herror _ y hy)
    · exact keeps_pure (hok loaded y hloaded hy)

theorem keeps_refreshProfile {Q : Except HttpError ProfileDetail → Progress → Prop} (p : Uuid)
    (hx : Settled d x) (hQ : ∀ a y, Settled d y → Q a y) : (refreshProfile p).CommitsKeep I Q x :=
  Prog.CommitsKeep.bind (keeps_loadProfile p hx (fun _ => keeps_pure (hQ _ x hx))
    fun _ y _ hy => keeps_pure (hQ _ y hy))

theorem keeps_detailMutable {Q : Except HttpError ProfileDetail → Progress → Prop} (p : Uuid)
    (user : User) (hx : Settled d x) (hQ : ∀ a y, Settled d y → Q a y) :
    (detailMutable p user).CommitsKeep I Q x :=
  Prog.CommitsKeep.bind (keeps_getProfileMutable p user hx (fun _ y hy => keeps_pure (hQ _ y hy))
    fun _ y _ hy => keeps_pure (hQ _ y hy))

/-! ## Writing -/

variable {Q : Bool → Progress → Prop}

theorem keeps_logEvents (p : Uuid) (actor : Uuid × User)
    (entries : List (String × String)) (hp : x.view.profiles.get p ≠ none)
    (hQ : ∀ y : Progress, SameRows x.view y.view → x.drawn ≤ y.drawn → Q true y) :
    (logEvents p actor entries).CommitsKeep I Q x := by
  induction entries generalizing x with
  | nil => exact keeps_pure (hQ x ⟨rfl, rfl, rfl⟩ le_rfl)
  | cons entry entries ih =>
    obtain ⟨event, message⟩ := entry
    refine keeps_fresh (keeps_answer _ (keeps_select _ ?_))
    rw [Alone.view_mk, Alone.view_mk, if_pos (Option.isSome_iff_ne_none.mpr hp)]
    refine keeps_insert _ (ih ?_ fun y hy hle => hQ y ?_ ((Nat.le_succ _).trans hle))
    · rw [Alone.view_write]
      exact hp
    · rw [Alone.view_write] at hy
      exact ⟨hy.profiles, hy.requirements, hy.catalogue⟩

variable {base cur row profile : SystemProfile} {id p : Uuid}

theorem keeps_flushProfile (hbase : x.view.profiles.get id = some base)
    (hQ : ∀ y : Progress, Edited x.view y.view id cur → x.drawn ≤ y.drawn → Q true y) :
    (flushProfile id base cur).CommitsKeep I Q x := by
  rw [flushProfile]
  split
  · rename_i hsame
    exact keeps_pure (hQ x (SameRows.edited ⟨rfl, rfl, rfl⟩ (hsame ▸ hbase)) le_rfl)
  · refine keeps_update _ _ (keeps_pure ?_)
    rw [hbase]
    refine hQ _ ?_ le_rfl
    rw [Alone.view_append]
    refine ⟨?_, fun j hj => Table.get_modify_of_ne _ _ hj, rfl, rfl⟩
    change (x.view.profiles.modify id (SystemProfile.writeBack base cur)).get id = some cur
    rw [Table.get_modify_self, hbase, Option.map_some, SystemProfile.writeBack_base]

/-- **A flush of a profile with its events, and the commit.** -/
theorem keeps_commitProfile
    (entries : List (String × String)) (note : List Note) (actor : Uuid × User)
    (hx : Consistent x.view x.drawn) (hbase : x.view.profiles.get id = some base)
    (hI : ∀ d', Edited x.view d' id cur → I d')
    (hQ : ∀ d' y, Edited x.view d' id cur → Settled d' y → Q true y) :
    (commitProfile id base cur entries note actor).CommitsKeep I Q x := by
  refine Prog.CommitsKeep.bind (keeps_flushProfile hbase fun y hy hle => ?_)
  have hrow : y.view.profiles.get id ≠ none := by
    rw [hy.profile]
    exact Option.some_ne_none cur
  refine Prog.CommitsKeep.bind (keeps_logEvents id actor entries hrow fun z hz hle' => ?_)
  have hedited := hy.sameRows hz
  refine keeps_publish _ (hI _ hedited) (keeps_pure (hQ _ _ hedited (settled_view ?_)))
  exact (hedited.consistent hbase hx).mono (hle.trans hle')

theorem keeps_flushRequirement {base cur : ProfileRequirement}
    (hbase : x.view.requirements.get id = some base) (hprofile : cur.profileId = base.profileId)
    (hrequirement : cur.requirementId = base.requirementId)
    (hQ : ∀ y : Progress, RowChanged x.view y.view id base cur → x.drawn ≤ y.drawn → Q true y) :
    (flushRequirement id base cur).CommitsKeep I Q x := by
  rw [flushRequirement]
  split
  · rename_i hsame
    exact keeps_pure (hQ x ⟨hbase, hsame ▸ hbase, fun _ _ => rfl, rfl, hprofile, hrequirement⟩ le_rfl)
  · refine keeps_update _ _ (keeps_pure ?_)
    rw [hbase]
    refine hQ _ ?_ le_rfl
    rw [Alone.view_append]
    refine ⟨hbase, ?_, fun j hj => Table.get_modify_of_ne _ _ hj, rfl, hprofile, hrequirement⟩
    change (x.view.requirements.modify id (ProfileRequirement.writeBack base cur)).get id = some cur
    rw [Table.get_modify_self, hbase, Option.map_some, ProfileRequirement.writeBack_base]

/-- **A flush of a row with its event, and the commit.** -/
theorem keeps_commitRequirement
    {base cur : ProfileRequirement} (event : String) (message : String → String)
    (actor : Uuid × User) (hx : Consistent x.view x.drawn)
    (hbase : x.view.requirements.get id = some base) (hprofile : cur.profileId = base.profileId)
    (hrequirement : cur.requirementId = base.requirementId) (hI : ∀ d, I d)
    (hQ : ∀ d' y, RowChanged x.view d' id base cur → Settled d' y → Q true y) :
    (commitRequirement id base cur event message actor).CommitsKeep I Q x := by
  refine Prog.CommitsKeep.bind (keeps_flushRequirement hbase hprofile hrequirement fun y hy hle => ?_)
  have hthere : y.view.profiles.get base.profileId ≠ none := by
    rw [hy.profiles]
    exact hx.profile id base hbase
  refine keeps_select _ (Prog.CommitsKeep.bind
    (keeps_logEvents _ actor _ hthere fun z hz hle' => ?_))
  have hchanged := hy.sameRows hz
  refine keeps_publish _ (hI _) (keeps_pure (hQ _ _ hchanged (settled_view ?_)))
  exact (hchanged.consistent hx).mono (hle.trans hle')

/-! ## The synchronisation -/

theorem keeps_insertRequirements (p : Uuid) (ids : List Uuid)
    (hx : Consistent x.view x.drawn) (hp : x.view.profiles.get p ≠ none)
    (hcatalogue : ∀ q ∈ ids, x.view.catalogue.get q ≠ none) (hnodup : ids.Nodup)
    (hnew : ∀ q ∈ ids, marksOf x.view p q = none)
    (hQ : ∀ y : Progress, Inserted x.view y.view p ids → Consistent y.view y.drawn → Q true y) :
    (insertRequirements p ids).CommitsKeep I Q x := by
  induction ids generalizing x with
  | nil => exact keeps_pure (hQ x (Inserted.nil _ p) hx)
  | cons q ids ih =>
    obtain ⟨hq, hnodup⟩ := List.nodup_cons.mp hnodup
    have hnone : requirementsFor x.view p q = [] := marksOf_eq_none.mp (hnew q List.mem_cons_self)
    have hadmits : admitsRequirement x.view p q = true := by
      rw [admitsRequirement, hnone, Option.isSome_iff_ne_none.mpr hp,
        Option.isSome_iff_ne_none.mpr (hcatalogue q List.mem_cons_self)]
      rfl
    have hfresh : x.view.requirements.get x.drawn = none := by
      by_contra hsome
      exact absurd (hx.drawnRow _ hsome) (lt_irrefl _)
    have hx' : Consistent x.view (x.drawn + 1) := hx.mono (Nat.le_succ _)
    have hlt : x.drawn < x.drawn + 1 := Nat.lt_succ_self _
    -- the row for the first requirement
    have hinserted : Inserted x.view (withRow x.view x.drawn (newRequirementRow p q)) p [q] :=
      inserted_withRow hx' hlt hfresh hp hnone rfl
    have hconsistent : Consistent (withRow x.view x.drawn (newRequirementRow p q)) (x.drawn + 1) :=
      hx'.withRow hlt hp hnone
    refine keeps_fresh (keeps_update _ _ ?_)
    rw [Alone.view_mk, if_pos hadmits, if_pos hadmits]
    generalize hy : ({ x with
      drawn := x.drawn + 1
      pending := x.pending ++ [DataWrite.newRequirement x.drawn (newRequirementRow p q)] } :
        Progress) = y
    have hdrawn : y.drawn = x.drawn + 1 := by rw [← hy]
    have hview : y.view = withRow x.view x.drawn (newRequirementRow p q) := by
      rw [← hy]
      exact Alone.view_write _ _
    refine ih (x := y) ?_ ?_ ?_ hnodup ?_ fun z hz hzc => hQ z ?_ hzc
    · rw [hview, hdrawn]
      exact hconsistent
    · rw [hview]
      exact hp
    · rw [hview]
      exact fun r hr => hcatalogue r (List.mem_cons_of_mem _ hr)
    · intro r hr
      have hrq : r ∉ [q] := by
        rw [List.mem_singleton]
        rintro rfl
        exact hq hr
      rw [hview, hinserted.marks, if_neg hrq]
      exact hnew r (List.mem_cons_of_mem _ hr)
    · rw [hview] at hz
      exact hinserted.trans hz

theorem keeps_removeRequirements {Q : Unit → Progress → Prop} (ids : List Uuid)
    (hQ : ∀ y : Progress, y.data = x.data → y.drawn = x.drawn → Removed x.view y.view ids → Q () y) :
    (removeRequirements ids).CommitsKeep I Q x := by
  induction ids generalizing x with
  | nil => exact keeps_pure (hQ x rfl rfl ⟨rfl, rfl, fun k => by rw [if_neg List.not_mem_nil]⟩)
  | cons id ids ih =>
    refine keeps_update _ _ (ih fun y hdata hdrawn hy => hQ y hdata hdrawn ?_)
    rw [Alone.view_append] at hy
    refine ⟨hy.profiles, hy.catalogue, fun k => ?_⟩
    rw [hy.rows]
    change (if k ∈ ids then none else (x.view.requirements.erase id).get k) = _
    by_cases hk : k = id
    · rw [hk, Table.get_erase_self, ite_self, if_pos List.mem_cons_self]
    · rw [Table.get_erase_of_ne _ hk]
      by_cases hmem : k ∈ ids
      · rw [if_pos hmem, if_pos (List.mem_cons_of_mem _ hmem)]
      · rw [if_neg hmem, if_neg fun h => (List.mem_cons.mp h).elim hk hmem]

/-- **The synchronisation.** -/
theorem keeps_syncProfileRequirements {loaded : LoadedProfile}
    (hx : Settled d x) (hloaded : Loads d p loaded)
    (hQ : ∀ y : Progress, Synced d y.view p (isActiveFor d loaded.profile.level) →
      Consistent y.view y.drawn → Q true y) :
    (syncProfileRequirements p loaded).CommitsKeep I Q x := by
  have hdc : Consistent d x.drawn := hx.consistent
  have hexisting : ∀ q, q ∈ loaded.requirements.map (fun r => r.row.requirementId) ↔
      marksOf d p q ≠ none := by
    intro q
    rw [List.mem_map, Option.ne_none_iff_exists']
    constructor
    · rintro ⟨e, he, rfl⟩
      obtain ⟨hrow, hp⟩ := (hloaded.rows e.id e.row).mp ⟨e, he, rfl, rfl⟩
      exact ⟨_, hdc.marksOf_eq_some.mpr ⟨e.id, e.row, hrow, hp, rfl, rfl⟩⟩
    · rintro ⟨s, hs⟩
      obtain ⟨k, r, hr, hp, rfl, -⟩ := hdc.marksOf_eq_some.mp hs
      obtain ⟨e, he, -, rfl⟩ := (hloaded.rows k r).mpr ⟨hr, hp⟩
      exact ⟨e, he, rfl⟩
  refine keeps_answer _ (keeps_select _ ?_)
  rw [Alone.view_mk, hx.view]
  generalize hvalid : (inOrder (x.answers 0).rank (activeEntries d loaded.profile.level)).map Prod.fst =
    valid
  have hactive : ∀ q, q ∈ valid ↔ isActiveFor d loaded.profile.level q = true := by
    intro q
    rw [← hvalid, ← mem_activeEntries, List.mem_map, List.mem_map]
    simp only [mem_inOrder]
  have hnodup : valid.Nodup := by
    rw [← hvalid]
    exact ((List.perm_insertionSort _ _).map _).nodup_iff.mpr (d.catalogue.nodup_rowsWhere _)
  refine Prog.CommitsKeep.bind (keeps_insertRequirements p _ (x := { x with
    answers := fun i => x.answers (i + 1) }) ?_ ?_ ?_ (hnodup.filter _) ?_ fun y hy hyc => ?_)
  · rw [Alone.view_mk, hx.view]
    exact hdc
  · rw [Alone.view_mk, hx.view, hloaded.profile]
    exact Option.some_ne_none _
  · intro q hq
    rw [Alone.view_mk, hx.view]
    have hq := (hactive q).mp (List.mem_filter.mp hq).1
    intro hnone
    rw [isActiveFor, hnone] at hq
    cases hq
  · intro q hq
    have hq := of_decide_eq_true (List.mem_filter.mp hq).2
    rw [Alone.view_mk, hx.view]
    exact not_not.mp fun hne => hq ((hexisting q).mpr hne)
  rw [Alone.view_mk, hx.view] at hy
  refine Prog.CommitsKeep.bind (keeps_removeRequirements _ fun z hdata hdrawn hz => keeps_pure ?_)
  have hsynced : Synced d z.view p (isActiveFor d loaded.profile.level) := by
    refine synced_of_inserted hdc hyc hy hz (fun q => ?_) fun k => ?_
    · rw [List.mem_filter, hactive, decide_eq_true_iff, hexisting, not_not]
    · constructor
      · intro hk
        obtain ⟨e, he, rfl⟩ := List.mem_map.mp hk
        obtain ⟨he, hnot⟩ := List.mem_filter.mp he
        obtain ⟨hrow, hp⟩ := (hloaded.rows e.id e.row).mp ⟨e, he, rfl, rfl⟩
        refine ⟨e.row, hrow, hp, Bool.eq_false_iff.mpr fun hq => ?_⟩
        exact of_decide_eq_true hnot ((hactive _).mpr hq)
      · rintro ⟨r, hr, hp, hq⟩
        obtain ⟨e, he, rfl, rfl⟩ := (hloaded.rows k r).mpr ⟨hr, hp⟩
        refine List.mem_map.mpr ⟨e, List.mem_filter.mpr ⟨he, decide_eq_true fun hmem => ?_⟩, rfl⟩
        rw [(hactive _).mp hmem] at hq
        cases hq
  refine hQ z hsynced ?_
  rw [hdrawn]
  exact hz.consistent hyc

/-- **The second transaction of a request**, for a profile that is there. -/
theorem keeps_syncProfile {Q : Except HttpError ProfileDetail → Progress → Prop} (hx : Settled d x)
    (hrow : d.profiles.get p = some row) (hI : ∀ d, I d)
    (hQ : ∀ d' a y, Synced d d' p (isActiveFor d row.level) → Settled d' y → Q a y) :
    (syncProfile p).CommitsKeep I Q x := by
  refine Prog.CommitsKeep.bind (keeps_loadProfile p hx (fun hnone => ?_) fun loaded y hloaded hy => ?_)
  · rw [hrow] at hnone
    cases hnone
  · obtain rfl : row = loaded.profile := Option.some.inj (hrow.symm.trans hloaded.profile)
    refine Prog.CommitsKeep.bind (keeps_syncProfileRequirements hy hloaded fun z hz hzc => ?_)
    refine keeps_publish _ (hI _) (keeps_refreshProfile p (settled_view hzc) ?_)
    exact fun a w hw => hQ _ a w hz hw

/-! ## Creation -/

theorem keeps_generateProfileCode {Q : String → Progress → Prop} (orgId : Uuid) (hx : Settled d x)
    (hQ : ∀ code y, Settled d y → Q code y) : (generateProfileCode orgId).CommitsKeep I Q x :=
  keeps_answer _ (keeps_select _ (keeps_pure (hQ _ _ (hx.ask _))))

/-- **A profile is inserted**, under a key that has not been used, or nothing is. -/
theorem keeps_createProfileWithUniqueCode
    {Q : Except HttpError (Uuid × SystemProfile) → Progress → Prop} (body : SystemProfileCreate)
    (creator : Uuid × User) (attempts : ℕ) (hx : Settled d x)
    (herror : ∀ e y, Settled d y → Q (.error e) y)
    (hok : ∀ id code time (y : Progress), Created d y.view id (body.profile creator code time) →
      Consistent y.view y.drawn → Q (.ok (id, body.profile creator code time)) y) :
    (createProfileWithUniqueCode body creator attempts).CommitsKeep I Q x := by
  induction attempts generalizing x with
  | zero => exact keeps_pure (herror _ x hx)
  | succ attempts ih =>
    refine Prog.CommitsKeep.bind (keeps_generateProfileCode _ hx fun code y hy => ?_)
    refine keeps_answer _ (keeps_fresh (keeps_update _ _ ?_))
    rw [Alone.view_mk, Alone.view_mk, hy.view]
    by_cases hadmits : admitsProfile d body.orgId code = true
    · rw [if_pos hadmits, if_pos hadmits]
      have hfresh : d.profiles.get y.drawn = none := by
        by_contra hsome
        exact absurd (hy.consistent.drawnProfile _ hsome) (lt_irrefl _)
      generalize hprofile : body.profile creator code (y.answers 0).now = profile
      have hcreated : Created d (Applies.apply (DataWrite.newProfile y.drawn profile) d) y.drawn profile :=
        ⟨hfresh, Table.get_insert_self _ hfresh, fun j hj => Table.get_insert_of_ne _ hj, rfl, rfl⟩
      generalize hz : ({ y with
        pending := y.pending ++ [DataWrite.newProfile y.drawn profile]
        drawn := y.drawn + 1
        answers := fun i => y.answers (i + 1) } : Progress) = z
      have hview : z.view = Applies.apply (DataWrite.newProfile y.drawn profile) d := by
        rw [← hz, ← hy.view]
        exact Alone.view_write ({ y with
          drawn := y.drawn + 1, answers := fun i => y.answers (i + 1) } : Progress) _
      have hdrawn : z.drawn = y.drawn + 1 := by rw [← hz]
      rw [← hprofile]
      refine keeps_pure (hok y.drawn code (y.answers 0).now z ?_ ?_)
      · rw [hview, hprofile]
        exact hcreated
      · rw [hview, hdrawn]
        exact hcreated.consistent (hy.consistent.mono (Nat.le_succ _)) (Nat.lt_succ_self _)
    · rw [if_neg hadmits, if_neg hadmits]
      have hy' : Settled d ({ y with
          pending := y.pending ++ []
          drawn := y.drawn + 1
          answers := fun i => y.answers (i + 1) } : Progress) :=
        ⟨hy.data, by rw [List.append_nil]; exact hy.pending, hy.consistent.mono (Nat.le_succ _)⟩
      split
      · exact keeps_pure (herror _ _ hy')
      · exact keeps_backtrack _ (ih hy')

end Parts

/-! ## The requests -/

/-- **The request changes the level of a profile** with this status to a level, if it has another one. -/
def Relevels (d : Data) : ProfileRequest × Option Uuid → Uuid → ProfileStatus → ℤ → Prop
  | (.update id body, caller), p, status, level => id = p ∧ body.level = some level ∧
      body.audienceOk = true ∧ (status ∈ frozenStatuses →
        Callers.callerWith Data.users superRoles d caller ≠ none)
  | _, _, _, _ => False

/-- What a request that was served leaves: consistent tables, and dossiers that have taken a step. -/
structure Outcome (d : Data) (Relevels : Uuid → ProfileStatus → ℤ → Prop) (d' : Data) (drawn : ℕ) :
    Prop where
  consistent : Consistent d' drawn
  step : ∀ p, Step (isActiveFor d) (Relevels p) (dossierOf d p) (dossierOf d' p)

section Requests

variable {d : Data} {x : Progress} {Relevels : Uuid → ProfileStatus → ℤ → Prop}

theorem Settled.outcome (hx : Settled d x) : Outcome d Relevels x.data x.drawn := by
  rw [hx.data]
  exact ⟨hx.consistent, fun p => .still _⟩

theorem Settled.outcome_of_step {d' : Data} {p : Uuid} (hx : Settled d' x)
    (hstep : Step (isActiveFor d) (Relevels p) (dossierOf d p) (dossierOf d' p))
    (hothers : ∀ j, j ≠ p → dossierOf d' j = dossierOf d j) : Outcome d Relevels x.data x.drawn := by
  rw [hx.data]
  refine ⟨hx.consistent, fun j => ?_⟩
  by_cases hj : j = p
  · rw [hj]
    exact hstep
  · rw [hothers j hj]
    exact .still _

theorem Settled.outcome_of_same {d' : Data} (hx : Settled d' x) (hprofiles : d'.profiles = d.profiles)
    (hrequirements : d'.requirements = d.requirements) : Outcome d Relevels x.data x.drawn := by
  rw [hx.data]
  refine ⟨hx.consistent, fun p => ?_⟩
  rw [dossierOf_congr (by rw [hprofiles]) hrequirements]
  exact .still _

theorem dossierOf_of_get {row : SystemProfile} {p : Uuid} (h : d.profiles.get p = some row) :
    dossierOf d p = some ⟨row.status, row.level, marksOf d p⟩ := by
  rw [dossierOf, h]
  rfl

/-- **What a report checks**: the loaded rows are all verified, and there are some. -/
theorem Loads.met_iff {p : Uuid} {loaded : LoadedProfile} {drawn : ℕ} (h : Loads d p loaded)
    (hd : Consistent d drawn) (status : ProfileStatus) (level : ℤ) :
    (loaded.requirements.length ≠ 0 ∧ loaded.verified = loaded.requirements.length) ↔
      (⟨status, level, marksOf d p⟩ : Dossier Uuid).Met := by
  have hall : loaded.verified = loaded.requirements.length ↔
      ∀ e ∈ loaded.requirements, e.row.status = .verified := by
    rw [LoadedProfile.verified, List.countP_eq_length]
    simp only [decide_eq_true_iff]
  rw [hall]
  constructor
  · rintro ⟨hlength, hverified⟩
    refine ⟨?_, fun q s hs => ?_⟩
    · obtain ⟨e, he⟩ := List.exists_mem_of_ne_nil _ (List.length_pos_iff.mp (Nat.pos_of_ne_zero hlength))
      obtain ⟨hrow, hp⟩ := (h.rows e.id e.row).mp ⟨e, he, rfl, rfl⟩
      refine ⟨e.row.requirementId, ?_⟩
      change marksOf d p e.row.requirementId ≠ none
      rw [hd.marksOf_eq_some.mpr ⟨e.id, e.row, hrow, hp, rfl, rfl⟩]
      exact Option.some_ne_none _
    · obtain ⟨k, r, hr, hp, -, rfl⟩ := hd.marksOf_eq_some.mp hs
      obtain ⟨e, he, -, rfl⟩ := (h.rows k r).mpr ⟨hr, hp⟩
      exact hverified e he
  · rintro ⟨⟨q, hq⟩, hverified⟩
    obtain ⟨s, hs⟩ := Option.ne_none_iff_exists'.mp hq
    obtain ⟨k, r, hr, hp, -⟩ := hd.marksOf_eq_some.mp hs
    obtain ⟨e, he, -⟩ := (h.rows k r).mpr ⟨hr, hp⟩
    refine ⟨fun hlength => ?_, fun e he => ?_⟩
    · rw [List.length_eq_zero_iff.mp hlength] at he
      exact List.not_mem_nil he
    · obtain ⟨hrow, hp⟩ := (h.rows e.id e.row).mp ⟨e, he, rfl, rfl⟩
      exact hverified _ _ (hd.marksOf_eq_some.mpr ⟨e.id, e.row, hrow, hp, rfl, rfl⟩)

/-- A request that leaves this. -/
abbrev Leaves {α : Type} (d : Data) (Relevels : Uuid → ProfileStatus → ℤ → Prop) (m : Handler α)
    (x : Progress) : Prop :=
  m.CommitsKeep (fun _ => True) (fun _ y => Outcome d Relevels y.data y.drawn) x

/-- **A change of a status.**  What follows the commit reads only. -/
theorem leaves_move {base cur : SystemProfile} {p : Uuid}
    {rest : Handler (Except HttpError ProfileDetail)}
    (entries : List (String × String)) (note : List Note) (actor : Uuid × User) (hx : Settled d x)
    (hbase : d.profiles.get p = some base) (hlevel : cur.level = base.level)
    (hedge : Edge base.status cur.status)
    (hmet : cur.status = .implemented →
      (⟨base.status, base.level, marksOf d p⟩ : Dossier Uuid).Met)
    (hrest : ∀ d' y, Settled d' y → (∀ z, Settled d' z → Outcome d Relevels z.data z.drawn) →
      Leaves d Relevels rest y) :
    Leaves d Relevels (do
      let saved ← commitProfile p base cur entries note actor
      if saved then rest else serverError) x := by
  have hview := hx.view
  refine Prog.CommitsKeep.bind (keeps_commitProfile entries note actor (by rw [hview]; exact hx.consistent)
    (by rw [hview]; exact hbase) (fun _ _ => trivial) fun d' y hy hy' => ?_)
  rw [hview] at hy
  refine hrest d' y hy' fun z hz => hz.outcome_of_step (p := p) ?_ fun j hj => hy.dossier_of_ne hj
  rw [dossierOf_of_get hbase, hy.dossier, hlevel]
  exact .move _ _ hedge hmet

theorem leaves_submitProfile (p : Uuid) (caller : Option Uuid) (hx : Settled d x) :
    Leaves d Relevels (submitProfile p caller) x := by
  refine Callers.keeps_requireRole Data.users _ _ caller (fun _ => keeps_pure hx.outcome)
    fun id user _ => ?_
  refine Prog.CommitsKeep.bind (keeps_getProfileMutable p user hx
    (fun _ y hy => keeps_pure hy.outcome) fun loaded y hloaded hy => ?_)
  dsimp only
  split
  · exact keeps_pure hy.outcome
  · rename_i hstatus
    have hedge : Edge loaded.profile.status .pendingReview := by
      rcases List.mem_cons.mp (not_not.mp hstatus) with h | h
      · exact h ▸ .submit
      · exact List.mem_singleton.mp h ▸ .resubmit
    exact leaves_move _ _ _ hy hloaded.profile rfl hedge (fun h => by cases h)
      fun d' z hz hQ => keeps_refreshProfile p hz fun _ => hQ

theorem leaves_reviewProfile (p : Uuid) (body : SystemProfileReview) (caller : Option Uuid)
    (hx : Settled d x) : Leaves d Relevels (reviewProfile p body caller) x := by
  refine Callers.keeps_requireRole Data.users _ _ caller (fun _ => keeps_pure hx.outcome)
    fun id user _ => ?_
  refine Prog.CommitsKeep.bind (keeps_getProfileMutable p user hx
    (fun _ y hy => keeps_pure hy.outcome) fun loaded y hloaded hy => ?_)
  dsimp only
  split
  · exact keeps_pure hy.outcome
  · rename_i hstatus
    have hstatus := not_not.mp hstatus
    refine keeps_answer _ ?_
    have hy' := hy.ask fun i => y.answers (i + 1)
    cases body.action with
    | approve =>
      cases given body.decisionNumber with
      | none => exact keeps_pure hy'.outcome
      | some number =>
        exact leaves_move _ _ _ hy' hloaded.profile rfl (hstatus ▸ .approve) (fun h => by cases h)
          fun d' z hz hQ => keeps_refreshProfile p hz fun _ => hQ
    | reject =>
      cases given (body.reviewNote.map strip) with
      | none => exact keeps_pure hy'.outcome
      | some note =>
        exact leaves_move _ _ _ hy' hloaded.profile rfl (hstatus ▸ .reject) (fun h => by cases h)
          fun d' z hz hQ => keeps_refreshProfile p hz fun _ => hQ

theorem leaves_reportImplementation (p : Uuid) (note : Option String) (caller : Option Uuid)
    (hx : Settled d x) : Leaves d Relevels (reportImplementation p note caller) x := by
  refine Callers.keeps_requireRole Data.users _ _ caller (fun _ => keeps_pure hx.outcome)
    fun id user _ => ?_
  refine Prog.CommitsKeep.bind (keeps_getProfileMutable p user hx
    (fun _ y hy => keeps_pure hy.outcome) fun loaded y hloaded hy => ?_)
  dsimp only
  split
  · exact keeps_pure hy.outcome
  · rename_i hstatus
    split
    · exact keeps_pure hy.outcome
    · split
      · exact keeps_pure hy.outcome
      · rename_i hopen
        have hopen := not_or.mp hopen
        have hle : loaded.verified ≤ loaded.requirements.length := List.countP_le_length
        refine leaves_move _ _ _ hy hloaded.profile rfl (not_not.mp hstatus ▸ .report) (fun _ => ?_)
          fun d' z hz hQ => keeps_detailMutable p user hz fun _ => hQ
        exact (hloaded.met_iff hy.consistent _ _).mp ⟨hopen.1, by omega⟩

theorem leaves_confirmImplementation (p : Uuid) (note : Option String) (caller : Option Uuid)
    (hx : Settled d x) : Leaves d Relevels (confirmImplementation p note caller) x := by
  refine Callers.keeps_requireRole Data.users _ _ caller (fun _ => keeps_pure hx.outcome)
    fun id user _ => ?_
  refine Prog.CommitsKeep.bind (keeps_getProfileMutable p user hx
    (fun _ y hy => keeps_pure hy.outcome) fun loaded y hloaded hy => ?_)
  dsimp only
  split
  · exact keeps_pure hy.outcome
  · rename_i hstatus
    exact keeps_answer _ (leaves_move _ _ _ (hy.ask _) hloaded.profile rfl
      (not_not.mp hstatus ▸ .confirm) (fun h => by cases h)
      fun d' z hz hQ => keeps_detailMutable p user hz fun _ => hQ)

theorem leaves_createProfile (body : SystemProfileCreate) (caller : Option Uuid)
    (hx : Settled d x) : Leaves d Relevels (createProfile body caller) x := by
  refine Callers.keeps_requireRole Data.users _ _ caller (fun _ => keeps_pure hx.outcome)
    fun id user _ => ?_
  dsimp only
  split
  · exact keeps_pure hx.outcome
  · refine Prog.CommitsKeep.bind (keeps_createProfileWithUniqueCode body (id, user) 5 hx
      (fun _ y hy => keeps_pure hy.outcome) fun p code time y hy hconsistent => ?_)
    refine Prog.CommitsKeep.bind (keeps_commitProfile _ _ _ hconsistent hy.edited.profile
      (fun _ _ => trivial) fun d' z hz hz' => ?_)
    -- the profile has been inserted without rows, and then edited
    have hdossier : dossierOf d' p = some ⟨if body.approvedDirectly user then .approved else .drafted,
        body.level, fun _ => none⟩ := by
      rw [hz.dossier, (marksOf_congr hy.edited.requirements), hx.consistent.marksOf_of_none hy.fresh]
      rfl
    refine keeps_syncProfile hz' hz.profile (fun _ => trivial) fun d'' a w hsynced hw => ?_
    refine hw.outcome_of_step (p := p) ?_ fun j hj => ?_
    · have hnone : dossierOf d p = none := by
        rw [dossierOf, hy.fresh]
        rfl
      have hactive : isActiveFor d' body.level = isActiveFor d body.level := by
        funext q
        rw [isActiveFor, isActiveFor, hz.catalogue, hy.edited.catalogue]
      obtain ⟨row, hrow, hdossier⟩ := Option.map_eq_some_iff.mp hdossier
      obtain ⟨hstatus, hlevel, hmarks⟩ := Dossier.mk.inj hdossier
      rw [hnone, dossierOf, hsynced.profiles, hrow, Option.map_some, hsynced.marks, hmarks, hstatus,
        hlevel]
      change Step (isActiveFor d) (Relevels p) none
        (some ⟨_, body.level, syncMarks (isActiveFor d' body.level) _⟩)
      rw [hactive]
      refine .create _ _ ?_
      split
      · exact Or.inr rfl
      · exact Or.inl rfl
    · rw [dossierOf, hsynced.profiles, hsynced.others j hj]
      exact (hz.dossier_of_ne hj).trans (hy.edited.dossier_of_ne hj)

theorem reopened_status (body : SystemProfileUpdate) (profile : SystemProfile) :
    (body.assign profile).reopened.status =
      if profile.status = .rejected then .drafted else profile.status := by
  rw [SystemProfile.reopened]
  split
  · rename_i h
    exact (if_pos h).symm
  · rename_i h
    exact (if_neg h).symm

theorem reopened_level (body : SystemProfileUpdate) (profile : SystemProfile) :
    (body.assign profile).reopened.level = body.level.getD profile.level := by
  rw [SystemProfile.reopened]
  split
  · rfl
  · rfl

theorem reopened_cases (body : SystemProfileUpdate) (profile : SystemProfile) :
    (body.assign profile).reopened.status = profile.status ∨
      Edge profile.status (body.assign profile).reopened.status ∧
        (body.assign profile).reopened.status = .drafted := by
  rw [reopened_status]
  split
  · rename_i h
    exact Or.inr ⟨h ▸ .reopen, rfl⟩
  · exact Or.inl rfl

variable {body : SystemProfileUpdate}

theorem level_of_not_changed {profile : SystemProfile}
    (h : body.levelChanged profile = false) : body.level.getD profile.level = profile.level := by
  rw [SystemProfileUpdate.levelChanged] at h
  cases hlevel : body.level with
  | none => rfl
  | some level =>
    rw [hlevel, Option.any_some, decide_eq_false_iff_not, not_not] at h
    exact h

theorem level_of_changed {profile : SystemProfile} (h : body.levelChanged profile = true) :
    ∃ level, body.level = some level ∧ level ≠ profile.level := by
  obtain ⟨level, hlevel, hne⟩ := Option.any_eq_true _ _ |>.mp h
  exact ⟨level, hlevel, of_decide_eq_true hne⟩

theorem touchesContent_of_level {level : ℤ} (h : body.level = some level) :
    body.touchesContent = true := by
  rw [SystemProfileUpdate.touchesContent, h]
  simp

theorem leaves_updateProfile (p : Uuid) (body : SystemProfileUpdate) (caller : Option Uuid)
    (hx : Settled d x) :
    Leaves d (Profiles.Relevels d (.update p body, caller)) (updateProfile p body caller) x := by
  refine Callers.keeps_requireRole Data.users _ _ caller (fun _ => keeps_pure hx.outcome)
    fun id user hcaller => ?_
  refine Prog.CommitsKeep.bind (keeps_getProfileMutable p user hx
    (fun _ y hy => keeps_pure hy.outcome) fun loaded y hloaded hy => ?_)
  rw [hx.view] at hcaller
  dsimp only
  split
  · exact keeps_pure hy.outcome
  · rename_i hfrozen
    split
    · exact keeps_pure hy.outcome
    · rename_i haudience
      have hview := hy.view
      refine Prog.CommitsKeep.bind (keeps_commitProfile _ _ _ (by rw [hview]; exact hy.consistent)
        (by rw [hview]; exact hloaded.profile) (fun _ _ => trivial) fun d' z hz hz' => ?_)
      rw [hview] at hz
      have hothers : ∀ j, j ≠ p → dossierOf d' j = dossierOf d j := fun j hj => hz.dossier_of_ne hj
      have hdossier := hz.dossier
      rw [reopened_level] at hdossier
      rw [if_pos rfl]
      split
      · -- the level changes, and the rows follow it
        rename_i hchanged
        obtain ⟨level, hlevel, hne⟩ := level_of_changed hchanged
        refine keeps_syncProfile hz' hz.profile (fun _ => trivial) fun d'' a w hsynced hw => ?_
        refine hw.outcome_of_step (p := p) ?_ fun j hj => ?_
        · have hactive : isActiveFor d' level = isActiveFor d level := by
            funext q
            rw [isActiveFor, isActiveFor, hz.catalogue]
          have hrelevels : Profiles.Relevels d (.update p body, caller) p loaded.profile.status level := by
            refine ⟨rfl, hlevel, by simpa using haudience, fun hmem => ?_⟩
            have hsuper : isSuperAdmin user = true := by
              by_contra hnot
              refine hfrozen ?_
              rw [decide_eq_true hmem, Bool.eq_false_iff.mpr hnot, touchesContent_of_level hlevel]
              rfl
            rw [Callers.callerWith_of_role Data.users hcaller (of_decide_eq_true hsuper)]
            exact Option.some_ne_none _
          rw [dossierOf_of_get hloaded.profile, dossierOf, hsynced.profiles, hz.profile,
            Option.map_some, hsynced.marks, reopened_level, hlevel, Option.getD_some, hactive,
            marksOf_congr hz.requirements]
          exact .relevel ⟨_, _, _⟩ _ level hne hrelevels (reopened_cases body loaded.profile)
        · rw [dossierOf, hsynced.profiles, hsynced.others j hj]
          exact hothers j hj
      · rename_i hsame
        rw [level_of_not_changed (Bool.eq_false_iff.mpr hsame)] at hdossier
        refine keeps_refreshProfile p hz' fun _ w hw => hw.outcome_of_step (p := p) ?_ hothers
        rw [hdossier, dossierOf_of_get hloaded.profile]
        rcases reopened_cases body loaded.profile with hstatus | ⟨hedge, hstatus⟩
        · rw [hstatus]
          exact .still _
        · refine .move ⟨_, _, _⟩ _ hedge fun h => ?_
          rw [hstatus] at h
          cases h

theorem leaves_deleteProfile (p : Uuid) (caller : Option Uuid) (hx : Settled d x) :
    Leaves d Relevels (deleteProfile p caller) x := by
  refine Callers.keeps_requireRole Data.users _ _ caller (fun _ => keeps_pure hx.outcome)
    fun id user _ => ?_
  refine Prog.CommitsKeep.bind (keeps_getProfileMutable p user hx
    (fun _ y hy => keeps_pure hy.outcome) fun loaded y hloaded hy => ?_)
  dsimp only
  cases assertProfileContentMutable loaded.profile user "mutate nội dung hồ sơ" with
  | some e => exact keeps_pure hy.outcome
  | none =>
    dsimp only
    split
    · exact keeps_pure hy.outcome
    · refine Prog.CommitsKeep.bind (keeps_removeRequirements _ fun z hdata hdrawn hz => ?_)
      refine keeps_update _ _ (keeps_publish _ trivial (keeps_pure ?_))
      rw [hy.view] at hz
      generalize hd' : Applies.apply (DataWrite.deleteProfile p) z.view = d'
      have hdeleted : Deleted d d' p := by
        rw [← hd']
        refine ⟨Table.get_erase_self _ p, fun j hj => ?_, fun k r => ?_⟩
        · change (z.view.profiles.erase p).get j = _
          rw [Table.get_erase_of_ne _ hj, hz.profiles]
        · change (z.view.requirements.get k).filter (fun r => decide (r.profileId ≠ p)) = some r ↔ _
          rw [Option.filter_eq_some_iff, hz.get_eq_some, decide_eq_true_iff, and_assoc]
          refine and_iff_right_of_imp ?_
          rintro ⟨hr, hp⟩ hmem
          -- the rows that are deleted one by one are rows of the profile
          obtain ⟨e, he, rfl⟩ := List.mem_map.mp hmem
          obtain ⟨hrow, hep⟩ := (hloaded.rows e.id e.row).mp ⟨e, he, rfl, rfl⟩
          rw [hrow] at hr
          exact hp (Option.some.inj hr ▸ hep)
      have hsettled : Settled d' { z with data := d', pending := [] } := by
        refine ⟨rfl, rfl, ?_⟩
        change Consistent d' z.drawn
        rw [hdrawn]
        exact hdeleted.consistent hy.consistent
      have hview : ({ z with
          pending := z.pending ++ [DataWrite.deleteProfile p] } : Progress).view = d' := by
        rw [← hd']
        exact Alone.view_write z _
      have hstep : Outcome d Relevels d' z.drawn := by
        refine hsettled.outcome_of_step (p := p) ?_ fun j hj => hdeleted.dossier_of_ne hy.consistent hj
        rw [hdeleted.dossier, dossierOf_of_get hloaded.profile]
        exact .delete _
      rw [hview]
      exact hstep

/-- **A change of a mark.**  What follows the commit reads only. -/
theorem leaves_mark {p k : Uuid} {user : User} {base cur : ProfileRequirement} (event : String)
    (message : String → String) (actor : Uuid × User) (hx : Settled d x)
    (hbase : (d.requirements.get k).filter (fun r => decide (r.profileId = p)) = some base)
    (hprofile : cur.profileId = base.profileId)
    (hrequirement : cur.requirementId = base.requirementId)
    (hstatus : base.status ≠ .verified) :
    Leaves d Relevels (do
      let saved ← commitRequirement k base cur event message actor
      if saved then detailMutable p user else serverError) x := by
  obtain ⟨hget, hp⟩ := Option.filter_eq_some_iff.mp hbase
  obtain rfl := of_decide_eq_true hp
  have hview := hx.view
  refine Prog.CommitsKeep.bind (keeps_commitRequirement event message actor
    (by rw [hview]; exact hx.consistent) (by rw [hview]; exact hget) hprofile hrequirement
    (fun _ => trivial) fun d' y hy hy' => ?_)
  rw [hview] at hy
  refine keeps_detailMutable _ user hy' fun _ z hz => hz.outcome_of_step (p := base.profileId) ?_
    fun j hj => ?_
  · obtain ⟨row, hrow⟩ := Option.ne_none_iff_exists'.mp (hx.consistent.profile k base hget)
    rw [dossierOf_of_get hrow, dossierOf_of_get (by rw [hy.profiles]; exact hrow),
      hy.marks hx.consistent]
    refine .mark ⟨row.status, row.level, marksOf d base.profileId⟩ _ base.status _ ?_ hstatus
    exact hx.consistent.marksOf_eq_some.mpr ⟨k, base, hget, rfl, rfl, rfl⟩
  · rw [dossierOf, dossierOf, hy.profiles, hy.marks_of_ne hx.consistent hj]

theorem leaves_requestRequirementReview (p k : Uuid) (evidence : String) (caller : Option Uuid)
    (hx : Settled d x) : Leaves d Relevels (requestRequirementReview p k evidence caller) x := by
  refine Callers.keeps_requireRole Data.users _ _ caller (fun _ => keeps_pure hx.outcome)
    fun id user _ => ?_
  refine Prog.CommitsKeep.bind (keeps_getProfileMutable p user hx
    (fun _ y hy => keeps_pure hy.outcome) fun loaded y hloaded hy => ?_)
  refine keeps_select _ ?_
  rw [hy.view]
  cases hrow : (d.requirements.get k).filter fun r => decide (r.profileId = p) with
  | none => exact keeps_pure hy.outcome
  | some row =>
    dsimp only
    split
    · exact keeps_pure hy.outcome
    · rename_i hstatus
      refine keeps_answer _ (leaves_mark _ _ _ (hy.ask _) hrow rfl rfl fun hverified => hstatus ?_)
      rw [hverified]
      exact List.mem_cons_of_mem _ List.mem_cons_self

theorem leaves_reviewRequirement (p k : Uuid) (body : ProfileRequirementReview) (caller : Option Uuid)
    (hx : Settled d x) : Leaves d Relevels (reviewRequirement p k body caller) x := by
  refine Callers.keeps_requireRole Data.users _ _ caller (fun _ => keeps_pure hx.outcome)
    fun id user _ => ?_
  refine Prog.CommitsKeep.bind (keeps_getProfileMutable p user hx
    (fun _ y hy => keeps_pure hy.outcome) fun loaded y hloaded hy => ?_)
  refine keeps_select _ ?_
  rw [hy.view]
  cases hrow : (d.requirements.get k).filter fun r => decide (r.profileId = p) with
  | none => exact keeps_pure hy.outcome
  | some row =>
    dsimp only
    split
    · exact keeps_pure hy.outcome
    · rename_i hstatus
      refine keeps_answer _ (leaves_mark _ _ _ (hy.ask _) hrow rfl rfl fun hverified => ?_)
      rw [not_not.mp hstatus] at hverified
      cases hverified

/-! ### The catalogue -/

theorem keeps_refreshLevel {Q : Except HttpError (Uuid × LevelRequirement) → Progress → Prop}
    (id : Uuid)
    (hQ : ∀ a, Q a x) : (refreshLevel id).CommitsKeep (fun _ => True) Q x := by
  refine keeps_select _ ?_
  cases x.view.catalogue.get id with
  | none => exact keeps_pure (hQ _)
  | some entry => exact keeps_pure (hQ _)

theorem outcome_of_catalogue {y : Progress} (hx : Settled d x)
    (hprofiles : y.view.profiles = d.profiles)
    (hrequirements : y.view.requirements = d.requirements) (hdrawn : x.drawn ≤ y.drawn) :
    Outcome d Relevels y.view y.drawn := by
  have hsettled : Settled y.view { y with data := y.view, pending := [] } :=
    settled_view ((hx.consistent.of_profiles hrequirements fun k => by rw [hprofiles]).mono hdrawn)
  exact hsettled.outcome_of_same hprofiles hrequirements

theorem leaves_createLevelRequirement (body : LevelRequirement) (caller : Option Uuid)
    (hx : Settled d x) : Leaves d Relevels (createLevelRequirement body caller) x := by
  refine Callers.keeps_requireRole Data.users _ _ caller (fun _ => keeps_pure hx.outcome)
    fun id user _ => keeps_select _ ?_
  match scalarOneOrNone (entriesWithCode x.view body.code) with
  | none => exact keeps_pure hx.outcome
  | some (some _) => exact keeps_pure hx.outcome
  | some none =>
    refine keeps_fresh (keeps_update _ _ ?_)
    have hdrawn := hx.consistent.mono (Nat.le_succ _)
    rw [Alone.view_mk, hx.view]
    by_cases hfree : entriesWithCode d (strip body.code) = []
    · rw [if_pos hfree, if_pos hfree]
      refine keeps_publish _ trivial (keeps_refreshLevel _ fun _ => ?_)
      refine outcome_of_catalogue hx ?_ ?_ (Nat.le_succ _)
      · rw [Alone.view_append, Alone.view_mk, hx.view]
        rfl
      · rw [Alone.view_append, Alone.view_mk, hx.view]
        rfl
    · rw [if_neg hfree, if_neg hfree]
      refine keeps_pure ?_
      rw [hx.data]
      exact ⟨hdrawn, fun p => .still _⟩

theorem leaves_updateLevelRequirement (id : Uuid) (body : LevelRequirementUpdate)
    (caller : Option Uuid) (hx : Settled d x) :
    Leaves d Relevels (updateLevelRequirement id body caller) x := by
  refine Callers.keeps_requireRole Data.users _ _ caller (fun _ => keeps_pure hx.outcome)
    fun adminId user _ => keeps_select _ ?_
  cases x.view.catalogue.get id with
  | none => exact keeps_pure hx.outcome
  | some entry =>
    dsimp only
    split
    · have hfound : ∀ (found : Bool) (y : Progress), y.data = d → y.view.profiles = d.profiles →
          y.view.requirements = d.requirements → y.drawn = x.drawn →
          Leaves d Relevels (if found then do
            Prog.publish []
            refreshLevel id
          else serverError) y := by
        intro found y hdata hprofiles hrequirements hdrawn
        split
        · exact keeps_publish _ trivial (keeps_refreshLevel _ fun _ =>
            outcome_of_catalogue hx hprofiles hrequirements hdrawn.ge)
        · refine keeps_pure ?_
          rw [hdata, hdrawn]
          exact ⟨hx.consistent, fun p => .still _⟩
      refine Prog.CommitsKeep.bind ?_
      rw [flushLevel]
      split
      · exact keeps_pure (hfound _ x hx.data (by rw [hx.view]) (by rw [hx.view]) rfl)
      · refine keeps_update _ _ (keeps_pure (hfound _ _ hx.data ?_ ?_ rfl))
        · rw [← hx.view, Alone.view_append]
          rfl
        · rw [← hx.view, Alone.view_append]
          rfl
    · exact keeps_pure hx.outcome

theorem leaves_deleteLevelRequirement (id : Uuid) (caller : Option Uuid) (hx : Settled d x) :
    Leaves d Relevels (deleteLevelRequirement id caller) x := by
  refine Callers.keeps_requireRole Data.users _ _ caller (fun _ => keeps_pure hx.outcome)
    fun adminId user _ => keeps_select _ ?_
  cases x.view.catalogue.get id with
  | none => exact keeps_pure hx.outcome
  | some entry =>
    refine keeps_select _ ?_
    split
    · exact keeps_pure hx.outcome
    · refine keeps_update _ _ ?_
      by_cases hfree : referencesTo x.view id = []
      · rw [if_pos hfree, if_pos hfree]
        refine keeps_publish _ trivial (keeps_pure (outcome_of_catalogue hx ?_ ?_ le_rfl))
        · rw [Alone.view_append, hx.view]
          rfl
        · rw [Alone.view_append, hx.view]
          rfl
      · rw [if_neg hfree, if_neg hfree]
        exact keeps_pure hx.outcome

theorem leaves_getProfile (p : Uuid) (caller : Option Uuid) (hx : Settled d x) :
    Leaves d Relevels (getProfile p caller) x := by
  refine Callers.keeps_getCurrentUser Data.users caller (fun _ => keeps_pure hx.outcome)
    fun id user _ _ => ?_
  exact Prog.CommitsKeep.bind (keeps_getProfileScoped p user hx
    (fun _ y hy => keeps_pure hy.outcome) fun loaded y _ hy => keeps_pure hy.outcome)

/-- **Every request.** -/
theorem leaves_profileHandler (request : ProfileRequest) (caller : Option Uuid) (hx : Settled d x) :
    Leaves d (Profiles.Relevels d (request, caller)) (profileHandler (request, caller)) x := by
  have hthen : ∀ {β γ : Type} {m : Handler β} {f : β → γ},
      Leaves d (Profiles.Relevels d (request, caller)) m x →
      Leaves d (Profiles.Relevels d (request, caller)) (m >>= fun r => pure (f r)) x := fun hm =>
    Prog.CommitsKeep.bind (hm.mono fun _ _ h => keeps_pure h)
  refine hthen ?_
  cases request with
  | get p => exact hthen (leaves_getProfile p caller hx)
  | create body => exact hthen (leaves_createProfile body caller hx)
  | update p body => exact hthen (leaves_updateProfile p body caller hx)
  | delete p => exact hthen (leaves_deleteProfile p caller hx)
  | submit p => exact hthen (leaves_submitProfile p caller hx)
  | review p body => exact hthen (leaves_reviewProfile p body caller hx)
  | report p note => exact hthen (leaves_reportImplementation p note caller hx)
  | confirm p note => exact hthen (leaves_confirmImplementation p note caller hx)
  | requestReview p k evidence =>
    exact hthen (leaves_requestRequirementReview p k evidence caller hx)
  | reviewRequirement p k body => exact hthen (leaves_reviewRequirement p k body caller hx)
  | createLevel body => exact hthen (leaves_createLevelRequirement body caller hx)
  | updateLevel id body => exact hthen (leaves_updateLevelRequirement id body caller hx)
  | deleteLevel id => exact hthen (leaves_deleteLevelRequirement id caller hx)

end Requests

/-- Requests one after the other. -/
abbrev profileServe :
    AtRest Data → (ProfileRequest × Option Uuid) × (ℕ → Env) → Option (AtRest Data) :=
  serveStep profileHandler

/-- **A request keeps the tables consistent, and every dossier takes a step.** -/
theorem outcome_of_serve {s t : AtRest Data} {action : (ProfileRequest × Option Uuid) × (ℕ → Env)}
    (hs : Consistent s.data s.drawn) (hstep : profileServe s action = some t) :
    Outcome s.data (Relevels s.data action.1) t.data t.drawn := by
  obtain ⟨⟨request, caller⟩, answers⟩ := action
  obtain rfl := Option.some.inj hstep
  have hx : Settled s.data ⟨s.data, [], s.drawn, answers⟩ := ⟨rfl, rfl, hs⟩
  exact (leaves_profileHandler request caller hx).ends

/-- Before the first profile. -/
structure Blank (s : AtRest Data) : Prop where
  profiles : s.data.profiles.keys = []
  requirements : s.data.requirements.keys = []

section Blank

variable {s : AtRest Data}

theorem Blank.get_profiles (h : Blank s) (k : Uuid) : s.data.profiles.get k = none := by
  by_contra hne
  obtain ⟨row, hrow⟩ := Option.ne_none_iff_exists'.mp hne
  have hmem := Table.mem_keys_of_get hrow
  rw [h.profiles] at hmem
  exact List.not_mem_nil hmem

theorem Blank.get_requirements (h : Blank s) (k : Uuid) : s.data.requirements.get k = none := by
  by_contra hne
  obtain ⟨row, hrow⟩ := Option.ne_none_iff_exists'.mp hne
  have hmem := Table.mem_keys_of_get hrow
  rw [h.requirements] at hmem
  exact List.not_mem_nil hmem

theorem Blank.consistent (h : Blank s) : Consistent s.data s.drawn where
  oneRow j k r t hr := by
    rw [h.get_requirements] at hr
    cases hr
  profile k r hr := by
    rw [h.get_requirements] at hr
    cases hr
  drawnProfile k hk := absurd (h.get_profiles k) hk
  drawnRow k hk := absurd (h.get_requirements k) hk

/-- **The tables stay consistent.** -/
theorem consistent_of_served {G : AtRest Data → (ProfileRequest × Option Uuid) × (ℕ → Env) → Prop}
    {t : AtRest Data} (hs : Blank s) (hrun : Runs profileServe G s t) : Consistent t.data t.drawn :=
  hrun.invariant (I := fun s => Consistent s.data s.drawn)
    (fun _ _ _ hI _ hstep => (outcome_of_serve hI hstep).consistent) hs.consistent

end Blank

end AssetInventory.Profiles

import AssetInventory.Profiles.Implemented

/-!
# The rows of a profile and the catalogue

The rows of a profile are a copy of the catalogue, taken when the profile is made and when its level changes.
What happens to the catalogue later does not reach them.

* `levelOf`, `SyncedAt`: the level of a profile, and the request that gave it to the profile.
* `rows_of_served`: the requirements of a profile are the entries that were active then, each once, and the
  answers say that the level is met when these are verified.
* `rows_miss_entry`: an entry that is made later.
-/

namespace AssetInventory.Profiles

open RowStore ReadCommitted Server Interleaving

def levelOf (data : Data) (p : Uuid) : Option ℤ := (data.profiles.get p).map SystemProfile.level

/-- The profile has the level after the request. -/
def KeepsLevel (p : Uuid) (level : ℤ) (s : AtRest Data)
    (action : (ProfileRequest × Option Uuid) × (ℕ → Env)) : Prop :=
  ∀ t ∈ profileServe s action, levelOf t.data p = some level

/-- **In a run from `s` to `t` the profile got its level by the request after `u`**, and has kept it. -/
def SyncedAt (s u t : AtRest Data) (p : Uuid) (level : ℤ) : Prop :=
  Runs profileServe anyAction s u ∧ levelOf u.data p ≠ some level ∧
    ∃ action v, profileServe u action = some v ∧ levelOf v.data p = some level ∧
      Runs profileServe (KeepsLevel p level) v t

/-- The requirements of a profile are the entries that were active for its level. -/
def FollowsFrom (s t : AtRest Data) (p : Uuid) (level : ℤ) : Prop :=
  ∃ u, SyncedAt s u t p level ∧ ∀ q, marksOf t.data p q ≠ none ↔ isActiveFor u.data level q = true

section Runs

variable {s t t' : AtRest Data} {p : Uuid} {level : ℤ}

theorem levelOf_of_dossier {x : Dossier Uuid} (h : x ∈ dossierOf t.data p) :
    levelOf t.data p = some x.level ∧ marksOf t.data p = x.marks := by
  obtain ⟨row, hrow, rfl⟩ := Option.map_eq_some_iff.mp h
  rw [levelOf, hrow]
  exact ⟨rfl, rfl⟩

/-- **A request** takes a copy of the catalogue, or leaves the copy that there is. -/
theorem followsFrom_of_serve {action : (ProfileRequest × Option Uuid) × (ℕ → Env)}
    (ht : Consistent t.data t.drawn) (hrun : Runs profileServe anyAction s t)
    (hfollows : ∀ p level, levelOf t.data p = some level → FollowsFrom s t p level)
    (hstep : profileServe t action = some t') :
    ∀ p level, levelOf t'.data p = some level → FollowsFrom s t' p level := by
  intro p level hlevel
  obtain ⟨row, hrow, rfl⟩ := Option.map_eq_some_iff.mp hlevel
  have hcase := ((outcome_of_serve ht hstep).step p).follows _ (dossierOf_of_get hrow)
  rcases hcase with ⟨hnew, hmarks⟩ | ⟨x, hx, hsame, hmarks⟩
  · -- the rows have just been copied
    refine ⟨t, ⟨hrun, fun hold => ?_, action, t', hstep, hlevel, Runs.refl _⟩, hmarks⟩
    obtain ⟨old, hold, hlevel⟩ := Option.map_eq_some_iff.mp hold
    exact hnew _ (dossierOf_of_get hold) hlevel
  · obtain ⟨hxlevel, hxmarks⟩ := levelOf_of_dossier hx
    obtain ⟨u, ⟨hu, hne, action', v, hv, hvlevel, hrun'⟩, hactive⟩ :=
      hfollows p row.level (by rw [hxlevel, hsame])
    have hkeeps : KeepsLevel p row.level t action := by
      intro w hw
      rw [Option.mem_def, hstep] at hw
      rw [← Option.some.inj hw]
      exact hlevel
    refine ⟨u, ⟨hu, hne, action', v, hv, hvlevel, hrun'.tail action hkeeps hstep⟩, fun q => ?_⟩
    rw [← hactive q, hxmarks]
    exact hmarks q

/-- **The copy that there is**, after requests one after the other. -/
theorem followsFrom_of_served (hs : Blank s) (hrun : Runs profileServe anyAction s t)
    (hlevel : levelOf t.data p = some level) : FollowsFrom s t p level := by
  have hinv := hrun.invariant
    (I := fun t => Consistent t.data t.drawn ∧ Runs profileServe anyAction s t ∧
      ∀ p level, levelOf t.data p = some level → FollowsFrom s t p level)
    (fun _ action _ ht _ hstep => ⟨(outcome_of_serve ht.1 hstep).consistent,
      ht.2.1.tail action trivial hstep, followsFrom_of_serve ht.1 ht.2.1 ht.2.2 hstep⟩)
    ⟨hs.consistent, Runs.refl s, fun p level h => by
      rw [levelOf, hs.get_profiles] at h
      cases h⟩
  exact hinv.2.2 p level hlevel

theorem length_requirementsFor (ht : Consistent t.data t.drawn) (q : Uuid) :
    (requirementsFor t.data p q).length = if marksOf t.data p q ≠ none then 1 else 0 := by
  rcases ht.requirementsFor_cases p q with hnil | ⟨x, hx⟩
  · rw [if_neg fun hne => hne (marksOf_eq_none.mpr hnil), hnil]
    rfl
  · rw [if_pos, hx]
    · rfl
    · rw [Ne, marksOf_eq_none, hx]
      exact List.cons_ne_nil _ _

theorem mem_requirementsFor_verified (ht : Consistent t.data t.drawn) {q : Uuid} :
    (∃ x ∈ requirementsFor t.data p q, x.2.status = .verified) ↔
      marksOf t.data p q = some .verified := by
  rw [ht.marksOf_eq_some]
  constructor
  · rintro ⟨⟨k, r⟩, hmem, hstatus⟩
    obtain ⟨hr, hp, hq⟩ := mem_requirementsFor.mp hmem
    exact ⟨k, r, hr, hp, hq, hstatus⟩
  · rintro ⟨k, r, hr, hp, hq, hstatus⟩
    exact ⟨(k, r), mem_requirementsFor.mpr ⟨hr, hp, hq⟩, hstatus⟩

theorem detail_of_get (ht : Consistent t.data t.drawn) {caller : Option Uuid} {answers : ℕ → Env}
    {detail : ProfileDetail}
    (h : (serveAlone profileRoute t (.get p, caller) answers).1 = .ok (.detail detail)) :
    ∃ loaded, Loads t.data p loaded ∧ detail = toDetail p loaded := by
  have hx : Settled t.data ⟨t.data, [], t.drawn, answers⟩ := ⟨rfl, rfl, ht⟩
  have hkeeps : (profileRoute (.get p, caller)).CommitsKeep (fun _ => True)
      (fun a _ => ∀ detail, a = .ok (.detail detail) →
        ∃ loaded, Loads t.data p loaded ∧ detail = toDetail p loaded)
      ⟨t.data, [], t.drawn, answers⟩ := by
    refine Prog.CommitsKeep.bind (Callers.keeps_getCurrentUser Data.users caller
      (fun _ => keeps_pure (keeps_pure fun _ h => by cases h)) fun id user _ _ => ?_)
    refine Prog.CommitsKeep.bind (keeps_getProfileScoped p user hx
      (fun _ _ _ => keeps_pure (keeps_pure fun _ h => by cases h)) fun loaded y hloaded _ => ?_)
    refine keeps_pure (keeps_pure ?_)
    rintro _ ⟨⟩
    exact ⟨loaded, hloaded, rfl⟩
  exact hkeeps.ends detail h

theorem levelCompliant_iff (ht : Consistent t.data t.drawn) {loaded : LoadedProfile}
    (hloaded : Loads t.data p loaded) : (toDetail p loaded).levelCompliant = true ↔
      (⟨loaded.profile.status, loaded.profile.level, marksOf t.data p⟩ : Dossier Uuid).Met := by
  rw [← hloaded.met_iff ht]
  change (decide (0 < loaded.requirements.length) &&
    decide (loaded.verified = loaded.requirements.length)) = true ↔ _
  rw [Bool.and_eq_true, decide_eq_true_iff, decide_eq_true_iff, Nat.pos_iff_ne_zero]

/-- **The requirements of a profile are the entries that were active for its level when it was made, or when
its level last changed**, each once; and the profile is shown to meet its level when there are such
entries, and all of them are verified. -/
theorem rows_of_served (hs : Blank s) (hrun : Runs profileServe anyAction s t) {row : SystemProfile}
    (hrow : t.data.profiles.get p = some row) : ∃ u, SyncedAt s u t p row.level ∧
      (∀ q, (requirementsFor t.data p q).length =
        if q ∈ (activeEntries u.data row.level).map Prod.fst then 1 else 0) ∧
      ∀ caller answers detail, (serveAlone profileRoute t (.get p, caller) answers).1 = .ok (.detail detail) →
        (detail.levelCompliant = true ↔ activeEntries u.data row.level ≠ [] ∧
          ∀ x ∈ activeEntries u.data row.level,
            ∃ y ∈ requirementsFor t.data p x.1, y.2.status = .verified) := by
  have ht : Consistent t.data t.drawn := consistent_of_served hs hrun
  obtain ⟨u, hu, hactive⟩ := followsFrom_of_served hs hrun
    (show levelOf t.data p = some row.level by rw [levelOf, hrow, Option.map_some])
  have hmem : ∀ q, marksOf t.data p q ≠ none ↔ q ∈ (activeEntries u.data row.level).map Prod.fst :=
    fun q => (hactive q).trans mem_activeEntries.symm
  refine ⟨u, hu, fun q => ?_, fun caller answers detail h => ?_⟩
  · rw [length_requirementsFor ht]
    exact if_congr (hmem q) rfl rfl
  · obtain ⟨loaded, hloaded, rfl⟩ := detail_of_get ht h
    rw [levelCompliant_iff ht hloaded]
    constructor
    · rintro ⟨⟨q, hq⟩, hverified⟩
      refine ⟨?_, fun x hx => (mem_requirementsFor_verified ht).mpr ?_⟩
      · rintro hnil
        have hq := (hmem q).mp hq
        rw [hnil] at hq
        exact List.not_mem_nil hq
      · obtain ⟨s, hs⟩ := Option.ne_none_iff_exists'.mp
          ((hmem x.1).mpr (List.mem_map_of_mem hx))
        rw [hs, hverified x.1 s hs]
    · rintro ⟨hne, hverified⟩
      obtain ⟨x, hx⟩ := List.exists_mem_of_ne_nil _ hne
      refine ⟨⟨x.1, (hmem x.1).mpr (List.mem_map_of_mem hx)⟩, fun q s hs => ?_⟩
      change marksOf t.data p q = some s at hs
      obtain ⟨y, hy, rfl⟩ := List.mem_map.mp ((hmem q).mp (by rw [hs]; exact Option.some_ne_none s))
      rw [(mem_requirementsFor_verified ht).mp (hverified y hy)] at hs
      exact (Option.some.inj hs).symm

end Runs

/-! An entry that is made after the profile. -/

/-- A profile is made, and then an entry of the catalogue for its level. -/
def exampleEntry : List ((ProfileRequest × Option Uuid) × (ℕ → Env)) :=
  [(.create exampleCreate, some 1),
    (.createLevel ⟨1, "L1-CAPNHAT", "Cập nhật bản vá", none, 1, true⟩, some 0)].map fun request =>
      (request, exampleAnswers)

/-- **An entry without a row.** -/
theorem rows_miss_entry : ¬ ∀ s : AtRest Data, Blank s → ∀ t, Runs profileServe anyAction s t →
    ∀ p row, t.data.profiles.get p = some row → ∀ q, (requirementsFor t.data p q).length =
      if q ∈ (activeEntries t.data row.level).map Prod.fst then 1 else 0 := by
  intro h
  obtain ⟨t, hrun, ht⟩ := exists_runs_of_exec (G := anyAction) profileServe exampleProfiles exampleEntry
    (p := fun t => decide (levelOf t.data 4 = some 1) && decide (requirementsFor t.data 4 7 = []) &&
      decide (7 ∈ (activeEntries t.data 1).map Prod.fst)) (by decide +kernel)
  rw [Bool.and_eq_true, Bool.and_eq_true, decide_eq_true_iff, decide_eq_true_iff,
    decide_eq_true_iff] at ht
  obtain ⟨row, hrow, hlevel⟩ := Option.map_eq_some_iff.mp ht.1.1
  have hlength := h exampleProfiles ⟨rfl, rfl⟩ t hrun 4 row hrow 7
  rw [ht.1.2, hlevel, if_pos ht.2] at hlength
  cases hlength

theorem rows_of_exampleEntry : ∃ t, Runs profileServe anyAction exampleProfiles t ∧
    ∃ row, t.data.profiles.get 4 = some row ∧ ∃ u, SyncedAt exampleProfiles u t 4 row.level ∧
      (∀ q, (requirementsFor t.data 4 q).length =
        if q ∈ (activeEntries u.data row.level).map Prod.fst then 1 else 0) ∧
      ∀ caller answers detail, (serveAlone profileRoute t (.get 4, caller) answers).1 = .ok (.detail detail) →
        (detail.levelCompliant = true ↔ activeEntries u.data row.level ≠ [] ∧
          ∀ x ∈ activeEntries u.data row.level,
            ∃ y ∈ requirementsFor t.data 4 x.1, y.2.status = .verified) := by
  obtain ⟨t, hrun, ht⟩ := exists_runs_of_exec (G := anyAction) profileServe exampleProfiles exampleEntry
    (p := fun t => decide (levelOf t.data 4 = some 1)) (by decide +kernel)
  obtain ⟨row, hrow, -⟩ := Option.map_eq_some_iff.mp (of_decide_eq_true ht)
  exact ⟨t, hrun, row, hrow, rows_of_served ⟨rfl, rfl⟩ hrun hrow⟩

end AssetInventory.Profiles

import AssetInventory.Profiles.Routes

/-!
# What the routes for profiles write

For each part of a route what it may write, announce and return, whatever it reads: `only_...`.  The
kinds `A` and `B` of the writes and of the announcements are parameters.  Writes that leave
`system_profiles` alone are of the kind `A` throughout.
-/

namespace AssetInventory.Profiles

open Orm RowStore ReadCommitted Server

/-- The write leaves `system_profiles` alone. -/
def DataWrite.Aside : DataWrite → Prop
  | .profile _ _ _ => False
  | .newProfile _ _ => False
  | .deleteProfile _ => False
  | _ => True

variable {A : DataWrite → Prop} {B : List Note → Prop}

/-! ## Reading -/

theorem only_loadProfile (profileId : Uuid) : (loadProfile profileId).Only A B fun _ => True := by
  refine only_select _ fun profile => ?_
  cases profile with
  | none => exact only_pure trivial
  | some profile =>
    exact only_answer _ fun _ => only_select _ fun _ => only_select _ fun _ =>
      only_select _ fun _ => only_pure trivial

theorem only_getProfileScoped (profileId : Uuid) (user : User) :
    (getProfileScoped profileId user).Only A B fun _ => True := by
  refine (only_loadProfile profileId).bind fun loaded _ => ?_
  cases loaded with
  | none => exact only_pure trivial
  | some loaded =>
    refine only_select _ fun visible => ?_
    split
    · exact only_pure trivial
    · exact only_pure trivial

theorem only_getProfileMutable (profileId : Uuid) (user : User) :
    (getProfileMutable profileId user).Only A B fun _ => True := by
  refine (only_getProfileScoped profileId user).bind fun loaded _ => ?_
  cases loaded with
  | error e => exact only_pure trivial
  | ok loaded =>
    dsimp only
    split
    · exact only_pure trivial
    · exact only_pure trivial

theorem only_refreshProfile (profileId : Uuid) :
    (refreshProfile profileId).Only A B fun _ => True := by
  refine (only_loadProfile profileId).bind fun loaded _ => ?_
  cases loaded with
  | none => exact only_pure trivial
  | some loaded => exact only_pure trivial

theorem only_detailMutable (profileId : Uuid) (user : User) :
    (detailMutable profileId user).Only A B fun _ => True := by
  refine (only_getProfileMutable profileId user).bind fun loaded _ => ?_
  cases loaded with
  | error e => exact only_pure trivial
  | ok loaded => exact only_pure trivial

theorem only_getProfile (profileId : Uuid) (caller : Option Uuid) :
    (getProfile profileId caller).Only A B fun _ => True := by
  refine (Callers.only_getCurrentUser Data.users caller).bind fun user _ => ?_
  cases user with
  | error e => exact only_pure trivial
  | ok user =>
    refine (only_getProfileScoped profileId user.2).bind fun loaded _ => ?_
    cases loaded with
    | error e => exact only_pure trivial
    | ok loaded => exact only_pure trivial

theorem only_scoped {α : Type} (roles : List UserRole) (detail : String) (caller : Option Uuid)
    (profileId : Uuid) {f : Uuid × User → LoadedProfile → Handler (Except HttpError α)}
    (hf : ∀ admin loaded, (f admin loaded).Only A B fun _ => True) :
    (do
      let admin ← Callers.requireRole Data.users roles detail caller
      match admin with
      | .error e => return .error e
      | .ok admin =>
        let loaded ← getProfileMutable profileId admin.2
        match loaded with
        | .error e => return .error e
        | .ok loaded => f admin loaded : Handler (Except HttpError α)).Only A B fun _ => True := by
  refine (Callers.only_requireRole Data.users roles detail caller).bind fun admin _ => ?_
  cases admin with
  | error e => exact only_pure trivial
  | ok admin =>
    refine (only_getProfileMutable profileId admin.2).bind fun loaded _ => ?_
    cases loaded with
    | error e => exact only_pure trivial
    | ok loaded => exact hf admin loaded

/-! ## Profiles and what happens to them -/

theorem only_flushProfile {id : Uuid} {base cur : SystemProfile} (h : A (.profile id base cur)) :
    (flushProfile id base cur).Only A B fun _ => True := by
  rw [flushProfile]
  split
  · exact only_pure trivial
  · exact only_update_one _ (fun _ => h) fun _ => only_pure trivial

section Aside

variable (hA : ∀ w : DataWrite, w.Aside → A w)

include hA

theorem only_logEvents (profileId : Uuid) (actor : Uuid × User) (entries : List (String × String)) :
    (logEvents profileId actor entries).Only A B fun _ => True := by
  induction entries with
  | nil => exact only_pure trivial
  | cons entry entries ih =>
    refine only_fresh fun id => only_answer _ fun time => only_select _ fun there => ?_
    split
    · exact only_insert (hA _ trivial) ih
    · exact only_pure trivial

theorem only_commitProfile {profileId : Uuid} {base cur : SystemProfile}
    (h : A (.profile profileId base cur)) (entries : List (String × String)) {note : List Note}
    (hB : B note) (actor : Uuid × User) :
    (commitProfile profileId base cur entries note actor).Only A B fun _ => True := by
  refine (only_flushProfile h).bind fun found _ => ?_
  cases found with
  | false => exact only_pure trivial
  | true =>
    refine (only_logEvents hA profileId actor entries).bind fun logged _ => ?_
    cases logged with
    | false => exact only_pure trivial
    | true => exact only_publish hB (only_pure trivial)

/-! ## The rows for the requirements of a level -/

theorem only_insertRequirements (profileId : Uuid) (ids : List Uuid) :
    (insertRequirements profileId ids).Only A B fun _ => True := by
  induction ids with
  | nil => exact only_pure trivial
  | cons requirementId ids ih =>
    refine only_fresh fun id => only_update_if _ (fun _ => hA _ trivial) fun d => ?_
    split
    · exact ih
    · exact only_pure trivial

theorem only_removeRequirements (ids : List Uuid) :
    (removeRequirements ids).Only A B fun _ => True := by
  induction ids with
  | nil => exact only_pure trivial
  | cons id ids ih => exact only_update_one _ (fun _ => hA _ trivial) fun _ => ih

theorem only_syncProfile (profileId : Uuid) (hB : B []) :
    (syncProfile profileId).Only A B fun _ => True := by
  have hsync : ∀ loaded, (syncProfileRequirements profileId loaded).Only A B fun _ => True := by
    intro loaded
    refine only_answer _ fun rank => only_select _ fun rows => ?_
    refine (only_insertRequirements hA profileId _).bind fun inserted _ => ?_
    cases inserted with
    | false => exact only_pure trivial
    | true => exact (only_removeRequirements hA _).bind fun _ _ => only_pure trivial
  refine (only_loadProfile profileId).bind fun loaded _ => ?_
  cases loaded with
  | none => exact only_pure trivial
  | some loaded =>
    refine (hsync loaded).bind fun synced _ => ?_
    cases synced with
    | false => exact only_pure trivial
    | true => exact only_publish hB (only_refreshProfile profileId)

/-! ## Creation and deletion -/

omit hA in
/-- **What is inserted is the profile of the request**, or nothing is, and what was pending before stays. -/
theorem safe_createProfileWithUniqueCode {R : Discipline Data RowKey DataWrite Note} {p : TxId}
    (body : SystemProfileCreate) (creator : Uuid × User) (attempts : ℕ) (pending : List DataWrite)
    (s : Store Data RowKey Note) : (createProfileWithUniqueCode body creator attempts).Safe R p
      (fun result ws _ => (∃ e, result = .error e ∧ ws = pending) ∨
        ∃ id code time, result = .ok (id, body.profile creator code time) ∧
          ws = pending ++ [.newProfile id (body.profile creator code time)]) pending s := by
  induction attempts generalizing s with
  | zero => exact safe_pure (.inl ⟨_, rfl, rfl⟩)
  | succ attempts ih =>
    have hcode : (generateProfileCode body.orgId).Only (fun _ => False) (fun _ => False)
        fun _ => True := only_answer _ fun _ => only_select _ fun _ => only_pure trivial
    refine hcode.bind_safe fun code t _ => ?_
    refine safe_answer _ fun u e _ _ => safe_fresh fun u _ _ => safe_update _ _ fun v _ _ _ => ?_
    by_cases hadmits : admitsProfile (v.view pending) body.orgId code = true
    · rw [if_pos hadmits, if_pos hadmits]
      exact safe_pure (.inr ⟨_, _, _, rfl, rfl⟩)
    · rw [if_neg hadmits, if_neg hadmits, List.append_nil]
      split
      · exact safe_pure (.inl ⟨_, rfl, rfl⟩)
      · exact safe_backtrack _ fun w _ _ => ih _

theorem only_deleteProfile (profileId : Uuid) (caller : Option Uuid) (hB : B [])
    (h : A (.deleteProfile profileId)) :
    (deleteProfile profileId caller).Only A B fun _ => True := by
  refine only_scoped Callers.adminRoles _ caller profileId fun admin loaded => ?_
  cases assertProfileContentMutable loaded.profile admin.2 "mutate nội dung hồ sơ" with
  | some e => exact only_pure trivial
  | none =>
    dsimp only
    split
    · exact only_pure trivial
    · refine (only_removeRequirements hA _).bind fun _ _ => ?_
      exact only_update_one _ (fun _ => h) fun _ => only_publish hB (only_pure trivial)

/-! ## The requirements of a profile -/

theorem only_commitRequirement (id : Uuid) (base cur : ProfileRequirement) (event : String)
    (message : String → String) (actor : Uuid × User) (hB : B []) :
    (commitRequirement id base cur event message actor).Only A B fun _ => True := by
  have hflush : (flushRequirement id base cur).Only A B fun _ => True := by
    rw [flushRequirement]
    split
    · exact only_pure trivial
    · exact only_update_one _ (fun _ => hA _ trivial) fun _ => only_pure trivial
  refine hflush.bind fun found _ => ?_
  cases found with
  | false => exact only_pure trivial
  | true =>
    refine only_select _ fun title => ?_
    refine (only_logEvents hA base.profileId actor _).bind fun logged _ => ?_
    cases logged with
    | false => exact only_pure trivial
    | true => exact only_publish hB (only_pure trivial)

theorem only_requestRequirementReview (profileId rowId : Uuid) (evidence : String)
    (caller : Option Uuid) (hB : B []) :
    (requestRequirementReview profileId rowId evidence caller).Only A B fun _ => True := by
  refine only_scoped Callers.adminRoles _ caller profileId fun admin loaded => only_select _ fun row => ?_
  cases row with
  | none => exact only_pure trivial
  | some row =>
    dsimp only
    split
    · exact only_pure trivial
    · refine only_answer _ fun time => ?_
      refine (only_commitRequirement hA rowId row _ _ _ admin hB).bind fun saved _ => ?_
      cases saved with
      | false => exact only_pure trivial
      | true => exact only_detailMutable profileId admin.2

theorem only_reviewRequirement (profileId rowId : Uuid) (body : ProfileRequirementReview)
    (caller : Option Uuid) (hB : B []) :
    (reviewRequirement profileId rowId body caller).Only A B fun _ => True := by
  refine only_scoped superRoles _ caller profileId fun admin loaded => only_select _ fun row => ?_
  cases row with
  | none => exact only_pure trivial
  | some row =>
    dsimp only
    split
    · exact only_pure trivial
    · refine only_answer _ fun time => ?_
      refine (only_commitRequirement hA rowId row _ _ _ admin hB).bind fun saved _ => ?_
      cases saved with
      | false => exact only_pure trivial
      | true => exact only_detailMutable profileId admin.2

/-! ## The catalogue -/

omit hA in
theorem only_refreshLevel (id : Uuid) : (refreshLevel id).Only A B fun _ => True := by
  refine only_select _ fun entry => ?_
  cases entry with
  | none => exact only_pure trivial
  | some entry => exact only_pure trivial

theorem only_createLevelRequirement (body : LevelRequirement) (caller : Option Uuid) (hB : B []) :
    (createLevelRequirement body caller).Only A B fun _ => True := by
  refine (Callers.only_requireRole Data.users superRoles _ caller).bind fun admin _ => ?_
  cases admin with
  | error e => exact only_pure trivial
  | ok admin =>
    refine only_select _ fun found => ?_
    match found with
    | none => exact only_pure trivial
    | some (some _) => exact only_pure trivial
    | some none =>
      refine only_fresh fun id => only_update_if _ (fun _ => hA _ trivial) fun d => ?_
      dsimp only
      split
      · exact only_publish hB (only_refreshLevel id)
      · exact only_pure trivial

theorem only_updateLevelRequirement (id : Uuid) (body : LevelRequirementUpdate)
    (caller : Option Uuid) (hB : B []) :
    (updateLevelRequirement id body caller).Only A B fun _ => True := by
  have hflush : ∀ base cur, (flushLevel id base cur).Only A B fun _ => True := by
    intro base cur
    rw [flushLevel]
    split
    · exact only_pure trivial
    · exact only_update_one _ (fun _ => hA _ trivial) fun _ => only_pure trivial
  refine (Callers.only_requireRole Data.users superRoles _ caller).bind fun admin _ => ?_
  cases admin with
  | error e => exact only_pure trivial
  | ok admin =>
    refine only_select _ fun entry => ?_
    cases entry with
    | none => exact only_pure trivial
    | some entry =>
      dsimp only
      split
      · refine (hflush entry (body.assign entry)).bind fun found _ => ?_
        cases found with
        | false => exact only_pure trivial
        | true => exact only_publish hB (only_refreshLevel id)
      · exact only_pure trivial

theorem only_deleteLevelRequirement (id : Uuid) (caller : Option Uuid) (hB : B []) :
    (deleteLevelRequirement id caller).Only A B fun _ => True := by
  refine (Callers.only_requireRole Data.users superRoles _ caller).bind fun admin _ => ?_
  cases admin with
  | error e => exact only_pure trivial
  | ok admin =>
    refine only_select _ fun entry => ?_
    cases entry with
    | none => exact only_pure trivial
    | some entry =>
      refine only_select _ fun referenced => ?_
      split
      · exact only_pure trivial
      · refine only_update_if _ (fun _ => hA _ trivial) fun d => ?_
        split
        · exact only_publish hB (only_pure trivial)
        · exact only_pure trivial

end Aside

end AssetInventory.Profiles

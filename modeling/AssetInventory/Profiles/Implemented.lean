import AssetInventory.Profiles.Effects

/-!
# Implemented means verified

A report that a profile is implemented looks at its requirements once.  A requirement that is verified stays
verified, and the catalogue leaves the rows of a profile alone.  But a super administrator may change the
level of a profile at any time, and then its rows are those of the new level, which nobody has verified.

* `ImplementedVerified`: every profile that is implemented has requirements, and they are verified.
* `RelevelsImplemented`: the request gives an implemented profile another level.
* `implementedVerified_of_served`: requests that do not do so keep it.
* `relevel_of_implemented`: a request that does.
-/

namespace AssetInventory.Profiles

open RowStore ReadCommitted Server Interleaving

/-- Every profile that is implemented or fulfilled has requirements, and all of them are verified. -/
def ImplementedVerified (data : Data) : Prop :=
  ∀ p row, data.profiles.get p = some row → row.status = .implemented ∨ row.status = .fulfilled →
    requirementsOf data p ≠ [] ∧ ∀ x ∈ requirementsOf data p, x.2.status = .verified

/-- **A super administrator changes the level of a profile** that is implemented or fulfilled, and the
request is accepted. -/
def RelevelsImplemented (data : Data) : ProfileRequest × Option Uuid → Prop
  | (.update p body, caller) => ∃ row ∈ data.profiles.get p, row.status.IsImplemented ∧
      body.levelChanged row = true ∧ body.audienceOk = true ∧
        (Callers.callerWith Data.users superRoles data caller).isSome = true
  | _ => False

instance (data : Data) : DecidablePred (RelevelsImplemented data)
  | (.update p body, caller) => inferInstanceAs (Decidable
      (∃ row ∈ data.profiles.get p, row.status.IsImplemented ∧ body.levelChanged row = true ∧
        body.audienceOk = true ∧
          (Callers.callerWith Data.users superRoles data caller).isSome = true))
  | (.get _, _) => isFalse id
  | (.create _, _) => isFalse id
  | (.delete _, _) => isFalse id
  | (.submit _, _) => isFalse id
  | (.review _ _, _) => isFalse id
  | (.report _ _, _) => isFalse id
  | (.confirm _ _, _) => isFalse id
  | (.requestReview _ _ _, _) => isFalse id
  | (.reviewRequirement _ _ _, _) => isFalse id
  | (.createLevel _, _) => isFalse id
  | (.updateLevel _ _, _) => isFalse id
  | (.deleteLevel _, _) => isFalse id

theorem relevelsImplemented_of_relevels {data : Data} {request : ProfileRequest × Option Uuid} {p : Uuid}
    {row : SystemProfile} {level : ℤ} (hrow : data.profiles.get p = some row)
    (himpl : row.status.IsImplemented) (hne : level ≠ row.level)
    (h : Relevels data request p row.status level) : RelevelsImplemented data request := by
  obtain ⟨request, caller⟩ := request
  cases request with
  | update id body =>
    obtain ⟨rfl, hlevel, haudience, hcaller⟩ := h
    have hfrozen : row.status ∈ frozenStatuses := by
      rcases himpl with hstatus | hstatus
      · rw [hstatus]
        decide
      · rw [hstatus]
        decide
    refine ⟨row, hrow, himpl, ?_, haudience, Option.isSome_iff_ne_none.mpr (hcaller hfrozen)⟩
    rw [SystemProfileUpdate.levelChanged, hlevel]
    exact decide_eq_true hne
  | _ => exact h.elim

/-- The dossiers of implemented profiles are met. -/
def SoundDossiers (data : Data) : Prop := ∀ p, ∀ x ∈ dossierOf data p, x.Sound

theorem implementedVerified_of_sound {data : Data} {drawn : ℕ} (hd : Consistent data drawn)
    (h : SoundDossiers data) : ImplementedVerified data := by
  intro p row hrow hstatus
  have hmet : (⟨row.status, row.level, marksOf data p⟩ : Dossier Uuid).Met :=
    h p _ (dossierOf_of_get hrow) hstatus
  obtain ⟨⟨q, hq⟩, hverified⟩ := hmet
  refine ⟨?_, fun x hx => ?_⟩
  · obtain ⟨s, hs⟩ := Option.ne_none_iff_exists'.mp hq
    obtain ⟨k, r, hr, hp, -⟩ := hd.marksOf_eq_some.mp hs
    exact List.ne_nil_of_mem (mem_requirementsOf.mpr ⟨hr, hp⟩)
  · obtain ⟨hr, hp⟩ := mem_requirementsOf.mp hx
    exact hverified x.2.requirementId _ (hd.marksOf_eq_some.mpr ⟨x.1, x.2, hr, hp, rfl, rfl⟩)

/-- **A request keeps it**, if it does not change the level of an implemented profile. -/
theorem soundDossiers_of_serve {s t : AtRest Data}
    {action : (ProfileRequest × Option Uuid) × (ℕ → Env)} (hs : Consistent s.data s.drawn)
    (hsound : SoundDossiers s.data) (haction : ¬ RelevelsImplemented s.data action.1)
    (hstep : profileServe s action = some t) : SoundDossiers t.data := by
  intro p
  refine ((outcome_of_serve hs hstep).step p).verified (hsound p) fun x hx himpl level hne h => ?_
  obtain ⟨row, hrow, rfl⟩ := Option.map_eq_some_iff.mp hx
  exact absurd (relevelsImplemented_of_relevels hrow himpl hne h) haction

/-- **Implemented means verified**, in every state that requests reach of which none changes the level of
an implemented profile. -/
theorem implementedVerified_of_served {s t : AtRest Data} (hs : Blank s)
    (hrun : Runs profileServe (fun s action => ¬ RelevelsImplemented s.data action.1) s t) :
    ImplementedVerified t.data := by
  have hstart : SoundDossiers s.data := by
    intro p x hx
    rw [dossierOf, hs.get_profiles] at hx
    cases hx
  have hend : Consistent t.data t.drawn ∧ SoundDossiers t.data := hrun.invariant
    (I := fun s => Consistent s.data s.drawn ∧ SoundDossiers s.data)
    (fun _ _ _ hI haction hstep => ⟨(outcome_of_serve hI.1 hstep).consistent,
      soundDossiers_of_serve hI.1 hI.2 haction hstep⟩) ⟨hs.consistent, hstart⟩
  exact implementedVerified_of_sound hend.1 hend.2

/-! A profile that is implemented, and gets another level. -/

/-- A super administrator and an administrator of an organisation, and a requirement for two levels. -/
def exampleProfiles : AtRest Data where
  data :=
    { organizations := [⟨0, none⟩]
      users := (Table.empty.insert 0 { exampleUser with role := .superAdmin }).insert 1
        { exampleUser with role := .orgAdmin }
      profiles := Table.empty
      catalogue := (Table.empty.insert 2 ⟨1, "L1-MATKHAU", "Chính sách mật khẩu", none, 0, true⟩).insert 3
        ⟨2, "L2-FIREWALL", "Firewall biên giới", none, 0, true⟩
      requirements := Table.empty
      events := [] }
  drawn := 4

/-- The clock stands still. -/
def exampleAnswers : ℕ → Env := fun _ => ⟨0, fun _ => 0⟩

/-- A profile of the first level. -/
def exampleCreate : SystemProfileCreate :=
  ⟨0, "Cổng thông tin", 1, none, none, none, none, none, none, none, none⟩

/-- An edit of the level alone. -/
def exampleLevel (level : ℤ) : SystemProfileUpdate :=
  ⟨none, some level, none, none, none, none, none, none, none, none, none, none, none, none⟩

/-- The profile `4` is made, approved, verified and reported as implemented. -/
def exampleReport : List ((ProfileRequest × Option Uuid) × (ℕ → Env)) :=
  [(.create exampleCreate, some 1), (.submit 4, some 1),
    (.review 4 ⟨.approve, some "12/QĐ", none, none, none⟩, some 0),
    (.requestReview 4 6 "Đã ban hành", some 1), (.reviewRequirement 4 6 ⟨true, none⟩, some 0),
    (.report 4 none, some 1)].map fun request => (request, exampleAnswers)

/-- **A profile that is implemented without its requirements**: the super administrator gives it another
level. -/
theorem relevel_of_implemented : ¬ ∀ s : AtRest Data, Blank s →
    ∀ t, Runs profileServe anyAction s t → ImplementedVerified t.data := by
  intro h
  obtain ⟨t, hrun, ht⟩ := exists_runs_of_exec (G := anyAction) profileServe exampleProfiles
    (exampleReport ++ [((.update 4 (exampleLevel 2), some 0), exampleAnswers)])
    (p := fun t => decide ((t.data.profiles.get 4).map SystemProfile.status = some .implemented) &&
      decide ((requirementsOf t.data 4).any fun x => decide (x.2.status = .pending)))
    (by decide +kernel)
  rw [Bool.and_eq_true, decide_eq_true_iff, decide_eq_true_iff, List.any_eq_true] at ht
  obtain ⟨hstatus, x, hx, hpending⟩ := ht
  obtain ⟨row, hrow, hstatus⟩ := Option.map_eq_some_iff.mp hstatus
  have hverified := (h exampleProfiles ⟨rfl, rfl⟩ t hrun 4 row hrow (Or.inl hstatus)).2 x hx
  rw [of_decide_eq_true hpending] at hverified
  cases hverified

theorem implementedVerified_of_report : ∃ t, Runs profileServe
      (fun s action => ¬ RelevelsImplemented s.data action.1) exampleProfiles t ∧
    (t.data.profiles.get 4).map SystemProfile.status = some .implemented ∧
      ImplementedVerified t.data := by
  obtain ⟨t, hrun, ht⟩ := exists_runs_of_exec
    (G := fun s action => ¬ RelevelsImplemented s.data action.1) profileServe exampleProfiles
    (exampleReport ++ [((.update 4 (exampleLevel 2), some 1), exampleAnswers)])
    (p := fun t => decide ((t.data.profiles.get 4).map SystemProfile.status = some .implemented))
    (by decide +kernel)
  exact ⟨t, hrun, of_decide_eq_true ht, implementedVerified_of_served ⟨rfl, rfl⟩ hrun⟩

end AssetInventory.Profiles

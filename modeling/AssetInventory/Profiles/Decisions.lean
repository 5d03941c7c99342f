import AssetInventory.Profiles.Implemented
import AssetInventory.Profiles.Writes

/-!
# Decisions with a number

A profile is approved with the number of a decision.  A super administrator approves it under review, or
creates it approved; either looks whether the number is there, and neither whether it is more than blanks.

* `Decided`: every profile that has been approved has a number that says something, and who approved it.
* `GivesBlankNumber`: the request approves a profile under a number of blanks.
* `decided_of_served`: requests that do not do so keep it.
* `approved_under_blanks`: a request that does.
-/

namespace AssetInventory.Profiles

open PyJson PyTime Orm RowStore ReadCommitted Server Interleaving

/-- A text with a character that is no space. -/
def SaysSomething (text : String) : Prop := ∃ c ∈ text.toList, isSpace c = false

instance (text : String) : Decidable (SaysSomething text) :=
  List.decidableBEx (fun c => isSpace c = false) text.toList

/-- A profile that has been approved has a number that says something, and who approved it and when. -/
def SystemProfile.Decided (profile : SystemProfile) : Prop :=
  profile.status ∈ frozenStatuses →
    (∃ number, profile.decisionNumber = some number ∧ SaysSomething number) ∧
      profile.reviewedBy ≠ none ∧ profile.reviewedAt ≠ none

/-- **Every approved profile has the number of its decision.** -/
def Decided (data : Data) : Prop := ∀ p row, data.profiles.get p = some row → row.Decided

/-- **The request approves a profile under a number of blanks**: it creates the profile approved, or
approves it under review. -/
def GivesBlankNumber (data : Data) : ProfileRequest × Option Uuid → Prop
  | (.create body, caller) => Callers.callerWith Data.users superRoles data caller ≠ none ∧
      ∃ number, given body.decisionNumber = some number ∧ ¬ SaysSomething number
  | (.review p body, caller) => Callers.callerWith Data.users superRoles data caller ≠ none ∧
      (data.profiles.get p).map SystemProfile.status = some .pendingReview ∧ body.action = .approve ∧
      ∃ number, given body.decisionNumber = some number ∧ ¬ SaysSomething number
  | _ => False

/-! ## Rows -/

section Rows

variable {d d' : Data} {p : Uuid} {row : SystemProfile}

theorem SaysSomething.strip {text : String} (h : SaysSomething text) : SaysSomething (strip text) := by
  obtain ⟨c, hc, hspace⟩ := h
  exact ⟨c, mem_strip hc hspace, hspace⟩

theorem decided_of_notMem (h : row.status ∉ frozenStatuses) : row.Decided := fun hmem => absurd hmem h

theorem SystemProfile.Decided.of_same {cur : SystemProfile} (h : row.Decided)
    (hstatus : cur.status ∈ frozenStatuses → row.status ∈ frozenStatuses)
    (hnumber : cur.decisionNumber = row.decisionNumber)
    (hby : cur.reviewedBy = none → row.reviewedBy = none)
    (hat : cur.reviewedAt = none → row.reviewedAt = none) : cur.Decided := by
  intro hmem
  obtain ⟨hrow, hrowBy, hrowAt⟩ := h (hstatus hmem)
  exact ⟨hnumber ▸ hrow, fun hnone => hrowBy (hby hnone), fun hnone => hrowAt (hat hnone)⟩

theorem Edited.decided (h : Edited d d' p row) (hd : Decided d) (hrow : row.Decided) : Decided d' := by
  intro q r hr
  by_cases hq : q = p
  · subst hq
    rw [h.profile] at hr
    exact Option.some.inj hr ▸ hrow
  · rw [h.others q hq] at hr
    exact hd q r hr

theorem Created.decided (h : Created d d' p row) (hd : Decided d) (hrow : row.Decided) : Decided d' :=
  h.edited.decided hd hrow

end Rows

/-- What changes no row of a profile, or deletes one. -/
def KeepsDecided : DataWrite → Prop
  | .profile _ _ _ => False
  | .newProfile _ _ => False
  | _ => True

theorem keepsDecided_of_aside (w : DataWrite) (h : w.Aside) : KeepsDecided w := by
  cases w <;> trivial

theorem KeepsDecided.decided {w : DataWrite} (hw : KeepsDecided w) (d : Data) (hd : Decided d) :
    Decided (Applies.apply w d) := by
  cases w with
  | profile id base cur => exact hw.elim
  | newProfile id row => exact hw.elim
  | deleteProfile id =>
    intro p row hrow
    have hold : d.profiles.get p = some row := by
      by_cases hp : p = id
      · subst hp
        have hnone : (d.profiles.erase p).get p = none := Table.get_erase_self _ p
        rw [show (Applies.apply (DataWrite.deleteProfile p) d).profiles = d.profiles.erase p from rfl,
          hnone] at hrow
        cases hrow
      · rwa [show (Applies.apply (DataWrite.deleteProfile id) d).profiles = d.profiles.erase id from rfl,
          Table.get_erase_of_ne _ hp] at hrow
    exact hd p row hold
  | _ => exact hd

/-! ## Requests -/

/-- Every commit of a request leaves approved profiles decided. -/
abbrev LeavesDecided {α : Type} (m : Handler α) (x : Progress) : Prop :=
  m.CommitsKeep Decided (fun _ _ => True) x

section Requests

variable {d : Data} {x : Progress} {p : Uuid}

theorem leavesDecided_of_only {α : Type} {B : List Note → Prop} {C : α → Prop} {m : Handler α}
    (hm : m.Only KeepsDecided B C) (hx : Decided x.view) : LeavesDecided m x :=
  (hm.commitsKeep_view (fun _ hw d => hw.decided d) hx).mono fun _ _ _ => trivial

/-- **A change of a profile that is loaded.**  What follows the commit changes no profile. -/
theorem leavesDecided_move {base cur : SystemProfile} {rest : Handler (Except HttpError ProfileDetail)}
    (entries : List (String × String)) (note : List Note) (actor : Uuid × User) (hx : Settled d x)
    (hd : Decided d) (hbase : d.profiles.get p = some base) (hcur : cur.Decided)
    (hrest : rest.Only KeepsDecided (fun _ => True) fun _ => True) : LeavesDecided (do
      let saved ← commitProfile p base cur entries note actor
      if saved then rest else serverError) x := by
  have hview := hx.view
  refine Prog.CommitsKeep.bind (keeps_commitProfile entries note actor
    (by rw [hview]; exact hx.consistent) (by rw [hview]; exact hbase) (fun d' hd' => ?_)
    fun d' y hy hy' => ?_)
  · rw [hview] at hd'
    exact hd'.decided hd hcur
  · rw [hview] at hy
    refine leavesDecided_of_only hrest ?_
    rw [hy'.view]
    exact hy.decided hd hcur

theorem only_refresh : (refreshProfile p).Only KeepsDecided (fun _ => True) fun _ => True :=
  only_refreshProfile p

theorem only_sync : (syncProfile p).Only KeepsDecided (fun _ => True) fun _ => True :=
  only_syncProfile keepsDecided_of_aside p trivial

theorem leavesDecided_submitProfile (p : Uuid) (caller : Option Uuid) (hx : Settled d x)
    (hd : Decided d) : LeavesDecided (submitProfile p caller) x := by
  refine Callers.keeps_requireRole Data.users _ _ caller (fun _ => keeps_pure trivial)
    fun id user _ => ?_
  refine Prog.CommitsKeep.bind (keeps_getProfileMutable p user hx (fun _ _ _ => keeps_pure trivial)
    fun loaded y hloaded hy => ?_)
  dsimp only
  split
  · exact keeps_pure trivial
  · have hdraft : ProfileStatus.pendingReview ∉ frozenStatuses := by decide
    exact leavesDecided_move _ _ _ hy hd hloaded.profile (decided_of_notMem hdraft) only_refresh

theorem leavesDecided_reviewProfile (p : Uuid) (body : SystemProfileReview) (caller : Option Uuid)
    (hx : Settled d x) (hd : Decided d) (hblank : ¬ GivesBlankNumber d (.review p body, caller)) :
    LeavesDecided (reviewProfile p body caller) x := by
  refine Callers.keeps_requireRole Data.users _ _ caller (fun _ => keeps_pure trivial)
    fun id user hcaller => ?_
  rw [hx.view] at hcaller
  refine Prog.CommitsKeep.bind (keeps_getProfileMutable p user hx (fun _ _ _ => keeps_pure trivial)
    fun loaded y hloaded hy => ?_)
  dsimp only
  split
  · exact keeps_pure trivial
  · rename_i hstatus
    refine keeps_answer _ ?_
    have hy' := hy.ask fun i => y.answers (i + 1)
    cases haction : body.action with
    | approve =>
      cases hnumber : given body.decisionNumber with
      | none => exact keeps_pure trivial
      | some number =>
        have hsays : SaysSomething number := by
          by_contra hnot
          refine hblank ⟨?_, ?_, haction, number, hnumber, hnot⟩
          · rw [hcaller]
            exact Option.some_ne_none _
          · rw [hloaded.profile, Option.map_some, not_not.mp hstatus]
        refine leavesDecided_move _ _ _ hy' hd hloaded.profile (fun _ => ⟨?_, ?_, ?_⟩) only_refresh
        · exact ⟨_, rfl, hsays.strip⟩
        · exact Option.some_ne_none _
        · exact Option.some_ne_none _
    | reject =>
      cases given (body.reviewNote.map strip) with
      | none => exact keeps_pure trivial
      | some note =>
        have hrejected : ProfileStatus.rejected ∉ frozenStatuses := by decide
        exact leavesDecided_move _ _ _ hy' hd hloaded.profile (decided_of_notMem hrejected) only_refresh

theorem leavesDecided_reportImplementation (p : Uuid) (note : Option String) (caller : Option Uuid)
    (hx : Settled d x) (hd : Decided d) : LeavesDecided (reportImplementation p note caller) x := by
  refine Callers.keeps_requireRole Data.users _ _ caller (fun _ => keeps_pure trivial)
    fun id user _ => ?_
  refine Prog.CommitsKeep.bind (keeps_getProfileMutable p user hx (fun _ _ _ => keeps_pure trivial)
    fun loaded y hloaded hy => ?_)
  dsimp only
  split
  · exact keeps_pure trivial
  · rename_i hstatus
    have happroved : loaded.profile.status ∈ frozenStatuses := by
      rw [not_not.mp hstatus]
      decide
    split
    · exact keeps_pure trivial
    · split
      · exact keeps_pure trivial
      · refine leavesDecided_move _ _ _ hy hd hloaded.profile ?_ (only_detailMutable p user)
        exact (hd p _ hloaded.profile).of_same (fun _ => happroved) rfl (fun h => h) fun h => h

theorem leavesDecided_confirmImplementation (p : Uuid) (note : Option String) (caller : Option Uuid)
    (hx : Settled d x) (hd : Decided d) : LeavesDecided (confirmImplementation p note caller) x := by
  refine Callers.keeps_requireRole Data.users _ _ caller (fun _ => keeps_pure trivial)
    fun id user _ => ?_
  refine Prog.CommitsKeep.bind (keeps_getProfileMutable p user hx (fun _ _ _ => keeps_pure trivial)
    fun loaded y hloaded hy => ?_)
  dsimp only
  split
  · exact keeps_pure trivial
  · rename_i hstatus
    have himplemented : loaded.profile.status ∈ frozenStatuses := by
      rw [not_not.mp hstatus]
      decide
    refine keeps_answer _ ?_
    refine leavesDecided_move _ _ _ (hy.ask _) hd hloaded.profile ?_ (only_detailMutable p user)
    exact (hd p _ hloaded.profile).of_same (fun _ => himplemented) rfl (fun h => by cases h)
      fun h => by cases h

theorem decided_profile {body : SystemProfileCreate} {creator : Uuid × User} (code : String)
    (time : Time) (hnumber : isSuperAdmin creator.2 = true → ∀ number,
      given body.decisionNumber = some number → SaysSomething number) :
    (body.profile creator code time).Decided := by
  rw [SystemProfileCreate.profile]
  cases hdirect : body.approvedDirectly creator.2 with
  | false =>
    have hdraft : ProfileStatus.drafted ∉ frozenStatuses := by decide
    exact decided_of_notMem hdraft
  | true =>
    obtain ⟨hsuper, hgiven⟩ := Bool.and_eq_true_iff.mp hdirect
    obtain ⟨number, hgiven⟩ := Option.isSome_iff_exists.mp hgiven
    refine fun _ => ⟨⟨number, ?_, hnumber hsuper number hgiven⟩, Option.some_ne_none _,
      Option.some_ne_none _⟩
    exact (Option.filter_eq_some_iff.mp hgiven).1

theorem leavesDecided_createProfile (body : SystemProfileCreate) (caller : Option Uuid)
    (hx : Settled d x) (hd : Decided d) (hblank : ¬ GivesBlankNumber d (.create body, caller)) :
    LeavesDecided (createProfile body caller) x := by
  refine Callers.keeps_requireRole Data.users _ _ caller (fun _ => keeps_pure trivial)
    fun id user hcaller => ?_
  rw [hx.view] at hcaller
  dsimp only
  split
  · exact keeps_pure trivial
  · refine Prog.CommitsKeep.bind (keeps_createProfileWithUniqueCode body (id, user) 5 hx
      (fun _ _ _ => keeps_pure trivial) fun q code time y hy hconsistent => ?_)
    have hrow : (body.profile (id, user) code time).Decided := by
      refine decided_profile code time fun hsuper number hnumber => ?_
      by_contra hnot
      refine hblank ⟨?_, number, hnumber, hnot⟩
      rw [Callers.callerWith_of_role Data.users hcaller (of_decide_eq_true hsuper)]
      exact Option.some_ne_none _
    have hcur : ({ body.profile (id, user) code time with
        managedBy := body.managedBy
        documentNumber := body.documentNumber
        documentDate := body.documentDate } : SystemProfile).Decided := hrow
    have hview : Decided y.view := hy.decided hd hrow
    refine Prog.CommitsKeep.bind (keeps_commitProfile _ _ _ hconsistent hy.edited.profile
      (fun d' hd' => hd'.decided hview hcur) fun d' z hz hz' => ?_)
    refine leavesDecided_of_only only_sync ?_
    rw [hz'.view]
    exact hz.decided hview hcur

theorem leavesDecided_updateProfile (p : Uuid) (body : SystemProfileUpdate) (caller : Option Uuid)
    (hx : Settled d x) (hd : Decided d) : LeavesDecided (updateProfile p body caller) x := by
  refine Callers.keeps_requireRole Data.users _ _ caller (fun _ => keeps_pure trivial)
    fun id user _ => ?_
  refine Prog.CommitsKeep.bind (keeps_getProfileMutable p user hx (fun _ _ _ => keeps_pure trivial)
    fun loaded y hloaded hy => ?_)
  have hcur : (body.assign loaded.profile).reopened.Decided := by
    have hassign : (body.assign loaded.profile).Decided :=
      (hd p _ hloaded.profile).of_same (fun h => h) rfl (fun h => h) fun h => h
    have hdraft : ProfileStatus.drafted ∉ frozenStatuses := by decide
    rw [SystemProfile.reopened]
    split
    · exact decided_of_notMem hdraft
    · exact hassign
  dsimp only
  split
  · exact keeps_pure trivial
  · split
    · exact keeps_pure trivial
    · refine leavesDecided_move _ _ _ hy hd hloaded.profile hcur ?_
      split
      · exact only_sync
      · exact only_refresh

/-- **Every request** that gives no blank number. -/
theorem leavesDecided_profileHandler (request : ProfileRequest) (caller : Option Uuid)
    (hx : Settled d x) (hd : Decided d) (hblank : ¬ GivesBlankNumber d (request, caller)) :
    LeavesDecided (profileHandler (request, caller)) x := by
  have hthen : ∀ {β γ : Type} {m : Handler β} {f : β → γ}, LeavesDecided m x →
      LeavesDecided (m >>= fun r => pure (f r)) x := fun hm =>
    Prog.CommitsKeep.bind (hm.mono fun _ _ _ => keeps_pure trivial)
  have hview : Decided x.view := hx.view.symm ▸ hd
  have honly : ∀ {β : Type} {m : Handler β}, m.Only KeepsDecided (fun _ => True) (fun _ => True) →
      LeavesDecided m x := fun hm => leavesDecided_of_only hm hview
  refine hthen ?_
  cases request with
  | get p => exact hthen (honly (only_getProfile p caller))
  | create body => exact hthen (leavesDecided_createProfile body caller hx hd hblank)
  | update p body => exact hthen (leavesDecided_updateProfile p body caller hx hd)
  | delete p => exact hthen (honly (only_deleteProfile keepsDecided_of_aside p caller trivial trivial))
  | submit p => exact hthen (leavesDecided_submitProfile p caller hx hd)
  | review p body => exact hthen (leavesDecided_reviewProfile p body caller hx hd hblank)
  | report p note => exact hthen (leavesDecided_reportImplementation p note caller hx hd)
  | confirm p note => exact hthen (leavesDecided_confirmImplementation p note caller hx hd)
  | requestReview p k evidence =>
    exact hthen (honly (only_requestRequirementReview keepsDecided_of_aside p k evidence caller trivial))
  | reviewRequirement p k body =>
    exact hthen (honly (only_reviewRequirement keepsDecided_of_aside p k body caller trivial))
  | createLevel body =>
    exact hthen (honly (only_createLevelRequirement keepsDecided_of_aside body caller trivial))
  | updateLevel id body =>
    exact hthen (honly (only_updateLevelRequirement keepsDecided_of_aside id body caller trivial))
  | deleteLevel id =>
    exact hthen (honly (only_deleteLevelRequirement keepsDecided_of_aside id caller trivial))

end Requests

/-! ## Runs -/

/-- **Every approved profile has the number of its decision**, from before the first profile on, as long as
no request approves one under a number of blanks. -/
theorem decided_of_served {s t : AtRest Data} (hs : Blank s)
    (hrun : Runs profileServe (fun s action => ¬ GivesBlankNumber s.data action.1) s t) :
    Decided t.data := by
  have hstart : Decided s.data := by
    intro p row hrow
    rw [hs.get_profiles] at hrow
    cases hrow
  have hend : Consistent t.data t.drawn ∧ Decided t.data := hrun.invariant
    (I := fun s => Consistent s.data s.drawn ∧ Decided s.data)
    (fun s action t hI hblank hstep => by
      refine ⟨(outcome_of_serve hI.1 hstep).consistent, ?_⟩
      obtain ⟨⟨request, caller⟩, answers⟩ := action
      obtain rfl := Option.some.inj hstep
      have hx : Settled s.data ⟨s.data, [], s.drawn, answers⟩ := ⟨rfl, rfl, hI.1⟩
      exact (leavesDecided_profileHandler request caller hx hI.2 hblank).data hI.2) ⟨hs.consistent, hstart⟩
  exact hend.2

/-- A profile that is created under a decision. -/
def exampleDecision (number : String) : SystemProfileCreate :=
  { exampleCreate with decisionNumber := some number }

/-- **A profile is approved under a blank**: the super administrator creates it so. -/
theorem approved_under_blanks : ¬ ∀ s : AtRest Data, Blank s →
    ∀ t, Runs profileServe anyAction s t → Decided t.data := by
  intro h
  obtain ⟨t, hrun, ht⟩ := exists_runs_of_exec (G := anyAction) profileServe exampleProfiles
    [((.create (exampleDecision " "), some 0), exampleAnswers)]
    (p := fun t => decide ((t.data.profiles.get 4).map (fun row => (row.status, row.decisionNumber)) =
      some (.approved, some " "))) (by decide +kernel)
  rw [decide_eq_true_iff, Option.map_eq_some_iff] at ht
  obtain ⟨row, hrow, hpair⟩ := ht
  obtain ⟨hstatus, hnumber⟩ := Prod.mk.inj hpair
  obtain ⟨⟨number, hsome, hsays⟩, -⟩ := h exampleProfiles ⟨rfl, rfl⟩ t hrun 4 row hrow
    (by rw [hstatus]; decide)
  obtain rfl : " " = number := Option.some.inj (hnumber.symm.trans hsome)
  exact absurd hsays (by decide +kernel)

theorem decided_of_creation : ∃ t, Runs profileServe
      (fun s action => ¬ GivesBlankNumber s.data action.1) exampleProfiles t ∧
    (t.data.profiles.get 4).map SystemProfile.status = some .approved ∧ Decided t.data := by
  have hsays : ¬ GivesBlankNumber exampleProfiles.data (.create (exampleDecision "12/QĐ"), some 0) := by
    rintro ⟨-, number, hnumber, hblank⟩
    obtain rfl : "12/QĐ" = number := Option.some.inj hnumber
    exact hblank (by decide +kernel)
  have hrun : Runs profileServe (fun s action => ¬ GivesBlankNumber s.data action.1) exampleProfiles _ :=
    Runs.single ((.create (exampleDecision "12/QĐ"), some 0), exampleAnswers) hsays rfl
  exact ⟨_, hrun, by decide +kernel, decided_of_served ⟨rfl, rfl⟩ hrun⟩

end AssetInventory.Profiles

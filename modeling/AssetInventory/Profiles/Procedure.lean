import AssetInventory.Profiles.Writes
import AssetInventory.Profiles.Implemented

/-!
# The procedure under interleaving

A request reads a profile without a lock, checks its status, and writes the new one when it commits.  What
others have committed meanwhile it does not see, and does not lose: its status is written over theirs.

* `FollowsWorkflow`: from one state that has been committed to the next the statuses take edges of the
  procedure only.
* `PassesAgain`: the condition on a commit, that the status as it is now would still pass the check.
* `followsWorkflow_iff`: in every interleaving, a step follows the procedure exactly when it meets the
  condition.
* `approval_over_rejection`: two decisions about one profile.
-/

namespace AssetInventory.Profiles

open PyJson PyTime Orm RowStore ReadCommitted Server Interleaving

def statusOf (data : Data) (p : Uuid) : Option ProfileStatus :=
  (data.profiles.get p).map SystemProfile.status

/-- How a profile begins: as a draft, or approved when a super administrator makes it. -/
def Starts (users : Table Uuid User) (row : SystemProfile) : Prop :=
  row.status = .drafted ∨
    row.status = .approved ∧ ∃ user ∈ users.get row.createdBy, isSuperAdmin user = true

/-- **The statuses follow the procedure** from some data to the next. -/
structure FollowsWorkflow (d d' : Data) : Prop where
  moves : ∀ p row row', d.profiles.get p = some row → d'.profiles.get p = some row' →
    row'.status = row.status ∨ Edge row.status row'.status
  starts : ∀ p row', d.profiles.get p = none → d'.profiles.get p = some row' → Starts d.users row'

/-- The profile of a change. -/
def Note.profileId : Note → Uuid
  | .submitted p => p
  | .approved p => p
  | .rejected p => p
  | .reopened p => p
  | .reported p => p
  | .confirmed p => p

/-- The status that a change leads to. -/
def Note.newStatus : Note → ProfileStatus
  | .submitted _ => .pendingReview
  | .approved _ => .approved
  | .rejected _ => .rejected
  | .reopened _ => .drafted
  | .reported _ => .implemented
  | .confirmed _ => .fulfilled

/-- The statuses that pass the check of the request. -/
def Note.accepts : Note → List ProfileStatus
  | .submitted _ => [.drafted, .rejected]
  | .approved _ => [.pendingReview]
  | .rejected _ => [.pendingReview]
  | .reopened _ => [.rejected]
  | .reported _ => [.approved]
  | .confirmed _ => [.implemented]

/-- **The condition on a commit**: the status that is stored passes the check of the request, as the one did
that the request has read, or is the new one already. -/
def PassesAgain (s : Store Data RowKey Note) (_ : List DataWrite) (note : List Note) : Prop :=
  ∀ n ∈ note, ∀ status ∈ statusOf s.data n.profileId, status ∈ n.accepts ∨ status = n.newStatus

instance (s : Store Data RowKey Note) (pending : List DataWrite) (note : List Note) :
    Decidable (PassesAgain s pending note) :=
  inferInstanceAs (Decidable (∀ n ∈ note, ∀ status ∈ statusOf s.data n.profileId,
    status ∈ n.accepts ∨ status = n.newStatus))

theorem passesAgain_singleton (s : Store Data RowKey Note) (n : Note) : PassesAgain s [] [n] ↔
    ∀ status ∈ statusOf s.data n.profileId, status ∈ n.accepts ∨ status = n.newStatus :=
  ⟨fun h => h n List.mem_cons_self, fun h _ hn => List.mem_singleton.mp hn ▸ h⟩

theorem edge_newStatus_iff (n : Note) (status : ProfileStatus) :
    Edge status n.newStatus ↔ status ∈ n.accepts := by
  constructor
  · intro h
    generalize hnew : n.newStatus = new at h
    cases n <;> cases h <;> cases hnew <;> simp [Note.accepts]
  · intro h
    cases n with
    | submitted p =>
      rcases List.mem_pair.mp h with rfl | rfl
      · exact .submit
      · exact .resubmit
    | approved p => exact List.mem_singleton.mp h ▸ .approve
    | rejected p => exact List.mem_singleton.mp h ▸ .reject
    | reopened p => exact List.mem_singleton.mp h ▸ .reopen
    | reported p => exact List.mem_singleton.mp h ▸ .report
    | confirmed p => exact List.mem_singleton.mp h ▸ .confirm

theorem ne_newStatus_of_accepts {n : Note} {status : ProfileStatus} (h : status ∈ n.accepts) :
    status ≠ n.newStatus := by
  rintro rfl
  cases n <;> simp [Note.accepts, Note.newStatus] at h

/-! ## Writes -/

section Writes

variable {d d' : Data} {ws : List DataWrite} {users : Table Uuid User} {creates : Bool}

theorem users_applyAll (ws : List DataWrite) (d : Data) : (applyAll ws d).users = d.users := by
  refine applyAll_invariant (P := fun d' : Data => d'.users = d.users) (fun w _ d' h => ?_) rfl
  cases w <;> exact h

theorem profiles_applyAll (hws : ∀ w ∈ ws, w.Aside) : (applyAll ws d).profiles = d.profiles := by
  refine applyAll_invariant (P := fun d' : Data => d'.profiles = d.profiles) (fun w hw d' h => ?_) rfl
  cases w <;> first | exact h | exact (hws _ hw).elim

/-- A write that moves no profile along.  Either profiles are made, or they may be deleted. -/
def DataWrite.Steady (users : Table Uuid User) (creates : Bool) : DataWrite → Prop
  | .profile _ base cur => cur.status = base.status ∧ cur.createdBy = base.createdBy
  | .newProfile _ row => creates = true ∧ Starts users row
  | .deleteProfile _ => creates = false
  | _ => True

theorem steady_of_aside (w : DataWrite) (h : w.Aside) : w.Steady users creates := by
  cases w <;> trivial

/-- What such writes do. -/
structure Steadily (users : Table Uuid User) (creates : Bool) (d d' : Data) : Prop where
  rows : ∀ p row', d'.profiles.get p = some row' →
    (∃ row, d.profiles.get p = some row ∧ row'.status = row.status) ∨
      d.profiles.get p = none ∧ Starts users row'
  there : creates = true → ∀ p, d'.profiles.get p = none → d.profiles.get p = none

variable {base cur : SystemProfile}

theorem SystemProfile.writeBack_steady (hstatus : cur.status = base.status)
    (hcreated : cur.createdBy = base.createdBy) (row : SystemProfile) :
    (writeBack base cur row).status = row.status ∧
      (writeBack base cur row).createdBy = row.createdBy := by
  rw [writeBack, hstatus, hcreated]
  exact ⟨if_pos rfl, if_pos rfl⟩

theorem Steadily.apply {w : DataWrite} (hw : w.Steady users creates) (h : Steadily users creates d d') :
    Steadily users creates d (Applies.apply w d') := by
  cases w with
  | profile id base cur =>
    obtain ⟨hstatus, hcreated⟩ := hw
    refine ⟨fun p row' hrow' => ?_, fun hcreates p hnone => h.there hcreates p ?_⟩
    · rcases Table.get_modify_cases hrow' with ⟨rfl, row₁, hrow₁, rfl⟩ | ⟨-, hrow'⟩
      · obtain ⟨hst, hcr⟩ := SystemProfile.writeBack_steady hstatus hcreated row₁
        rcases h.rows p row₁ hrow₁ with ⟨row, hrow, hsame⟩ | ⟨hnone, hstarts⟩
        · exact Or.inl ⟨row, hrow, hst.trans hsame⟩
        · refine Or.inr ⟨hnone, ?_⟩
          rw [Starts, hst, hcr]
          exact hstarts
      · exact h.rows p row' hrow'
    · change (d'.profiles.modify id _).get p = none at hnone
      by_cases hp : p = id
      · subst hp
        rw [Table.get_modify_self, Option.map_eq_none_iff] at hnone
        exact hnone
      · rwa [Table.get_modify_of_ne _ _ hp] at hnone
  | newProfile id row₁ =>
    refine ⟨fun p row' hrow' => ?_, fun hcreates p hnone => h.there hcreates p ?_⟩
    · rcases Table.get_insert_cases hrow' with ⟨rfl, rfl, hnone⟩ | hrow'
      · exact Or.inr ⟨h.there hw.1 p hnone, hw.2⟩
      · exact h.rows p row' hrow'
    · cases hget : d'.profiles.get p with
      | none => rfl
      | some row =>
        have hkept : (Applies.apply (DataWrite.newProfile id row₁) d').profiles.get p = some row :=
          Table.get_insert_of_get hget
        rw [hnone] at hkept
        cases hkept
  | deleteProfile id =>
    refine ⟨fun p row' hrow' => ?_, fun hcreates => absurd (hcreates.symm.trans hw) (by decide)⟩
    change (d'.profiles.erase id).get p = some row' at hrow'
    by_cases hp : p = id
    · rw [hp, Table.get_erase_self] at hrow'
      cases hrow'
    · rw [Table.get_erase_of_ne _ hp] at hrow'
      exact h.rows p row' hrow'
  | _ => exact ⟨h.rows, h.there⟩

/-- **Steady writes** follow the procedure. -/
theorem followsWorkflow_of_steady (creates : Bool) (hd : d.users = users) (hws : ∀ w ∈ ws, w.Steady users creates) :
    FollowsWorkflow d (applyAll ws d) := by
  have h : Steadily users creates d (applyAll ws d) := by
    refine applyAll_invariant (fun w hw d' h => h.apply (hws w hw)) ⟨fun p row hrow => ?_, fun _ _ h => h⟩
    exact Or.inl ⟨row, hrow, rfl⟩
  refine ⟨fun p row row' hrow hrow' => ?_, fun p row' hnone hrow' => ?_⟩
  · rcases h.rows p row' hrow' with ⟨row₁, hrow₁, hsame⟩ | ⟨hnone, -⟩
    · rw [hrow] at hrow₁
      rw [Option.some.inj hrow₁]
      exact Or.inl hsame
    · rw [hrow] at hnone
      cases hnone
  · rcases h.rows p row' hrow' with ⟨row₁, hrow₁, -⟩ | ⟨-, hstarts⟩
    · rw [hnone] at hrow₁
      cases hrow₁
    · rw [hd]
      exact hstarts

theorem FollowsWorkflow.refl (d : Data) : FollowsWorkflow d d :=
  followsWorkflow_of_steady false rfl (List.forall_mem_nil _)

/-- **A change of a status** follows the procedure exactly when what is stored would pass the check. -/
theorem followsWorkflow_of_change {n : Note} (hbase : base.status ∈ n.accepts)
    (hcur : cur.status = n.newStatus) (hws : ∀ w ∈ ws, w.Aside) :
    FollowsWorkflow d (applyAll (.profile n.profileId base cur :: ws) d) ↔
      ∀ status ∈ statusOf d n.profileId, status ∈ n.accepts ∨ status = n.newStatus := by
  have hprofiles : (applyAll (.profile n.profileId base cur :: ws) d).profiles =
      d.profiles.modify n.profileId (SystemProfile.writeBack base cur) := by
    rw [applyAll_cons, profiles_applyAll hws]
    rfl
  have hstatus : ∀ row, (SystemProfile.writeBack base cur row).status = n.newStatus := by
    intro row
    have hne : cur.status ≠ base.status := by
      rw [hcur]
      exact (ne_newStatus_of_accepts hbase).symm
    exact (if_neg hne).trans hcur
  constructor
  · intro h status hst
    obtain ⟨row, hrow, rfl⟩ := Option.map_eq_some_iff.mp hst
    have hrow' : (applyAll (.profile n.profileId base cur :: ws) d).profiles.get n.profileId =
        some (SystemProfile.writeBack base cur row) := by
      rw [hprofiles, Table.get_modify_self, hrow]
      rfl
    have hmoves := h.moves _ row _ hrow hrow'
    rw [hstatus, edge_newStatus_iff] at hmoves
    exact hmoves.symm.imp_right Eq.symm
  · intro h
    refine ⟨fun p row row' hrow hrow' => ?_, fun p row' hnone hrow' => ?_⟩
    · rw [hprofiles] at hrow'
      by_cases hp : p = n.profileId
      · subst hp
        rw [Table.get_modify_self, hrow] at hrow'
        obtain rfl := Option.some.inj hrow'
        have hpasses := h row.status (Option.map_eq_some_iff.mpr ⟨row, hrow, rfl⟩)
        rw [hstatus, edge_newStatus_iff]
        exact hpasses.symm.imp_left Eq.symm
      · rw [Table.get_modify_of_ne _ _ hp, hrow] at hrow'
        exact Or.inl (congrArg _ (Option.some.inj hrow').symm)
    · rw [hprofiles] at hrow'
      rcases Table.get_modify_cases hrow' with ⟨rfl, row, hrow, -⟩ | ⟨-, hrow⟩
      · rw [hnone] at hrow
        cases hrow
      · rw [hnone] at hrow
        cases hrow

end Writes

/-! ## The routes -/

/-- What is committed follows the procedure exactly when it passes the checks again. -/
def procedureDiscipline (users : Table Uuid User) : Discipline Data RowKey DataWrite Note where
  Inv s := s.data.users = users
  Rely _ _ _ := True
  Guar _ s t := ∃ note, t.events = note ++ s.events ∧
    (FollowsWorkflow s.data t.data ↔ PassesAgain s [] note)
  Allowed _ _ _ := True
  rely_refl _ _ := trivial
  rely_trans _ _ _ _ _ _ := trivial
  rely_of_guar _ _ _ _ _ _ := trivial
  guar_refl _ s := ⟨[], rfl, iff_of_true (.refl _) (List.forall_mem_nil _)⟩
  lock_ok _ s row hinv _ := by
    rw [Store.data_lock, Store.events_lock]
    exact ⟨hinv, [], rfl, iff_of_true (.refl _) (List.forall_mem_nil _)⟩
  release_ok _ _ hinv := ⟨hinv, [], rfl, iff_of_true (.refl _) (List.forall_mem_nil _)⟩
  unlock_ok _ _ _ hinv := ⟨hinv, [], rfl, iff_of_true (.refl _) (List.forall_mem_nil _)⟩
  draw_ok _ _ hinv := ⟨hinv, [], rfl, iff_of_true (.refl _) (List.forall_mem_nil _)⟩

section Routes

variable {users : Table Uuid User} {q : TxId} {s : Store Data RowKey Note} {α : Type}

theorem safe_of_steady_after (creates : Bool) {m : Handler α} {pending : List DataWrite}
    (hm : m.Only (DataWrite.Steady users creates) ([] = ·) fun _ => True)
    (hpending : ∀ w ∈ pending, w.Steady users creates) :
    m.Safe (procedureDiscipline users) q anyEnd pending s := by
  refine (hm.safe_of_all ?_ hpending).mono fun _ _ _ _ => trivial
  rintro ws t _ rfl hinv hws -
  exact ⟨(users_applyAll ws t.data).trans hinv, [], rfl,
    iff_of_true (followsWorkflow_of_steady creates hinv hws) (List.forall_mem_nil _)⟩

theorem safe_of_steady (creates : Bool) {m : Handler α}
    (hm : m.Only (DataWrite.Steady users creates) ([] = ·) fun _ => True) :
    m.Safe (procedureDiscipline users) q anyEnd [] s :=
  safe_of_steady_after creates hm (List.forall_mem_nil _)

/-- **A change of a status**, and what follows its commit. -/
theorem safe_change {base cur : SystemProfile} {n : Note} {profileId : Uuid}
    {entries : List (String × String)} {actor : Uuid × User} {f : Bool → Handler α}
    (hid : n.profileId = profileId) (hbase : base.status ∈ n.accepts) (hcur : cur.status = n.newStatus)
    (hf : ∀ t, (f true).Safe (procedureDiscipline users) q anyEnd [] t)
    (hfailed : (f false).Only (fun _ => False) (fun _ => False) fun _ => True) :
    (commitProfile profileId base cur entries [n] actor >>= f).Safe (procedureDiscipline users) q anyEnd
      [] s := by
  subst hid
  have hne : base ≠ cur := by
    rintro rfl
    exact ne_newStatus_of_accepts hbase hcur
  have hflush : (flushProfile n.profileId base cur).Safe (procedureDiscipline users) q
      (fun _ ws _ => ws = [.profile n.profileId base cur]) [] s := by
    rw [flushProfile, if_neg hne]
    exact safe_update _ _ fun t _ _ _ => safe_pure rfl
  have hsaved : (commitProfile n.profileId base cur entries [n] actor).Safe (procedureDiscipline users) q
      (fun saved ws _ => saved = true → ws = []) [] s := by
    refine hflush.bind fun found ws t hws => ?_
    subst hws
    cases found with
    | false => exact safe_pure fun h => by cases h
    | true =>
      have hlog := only_logEvents (A := DataWrite.Aside) (B := fun _ => False) (fun _ h => h)
        n.profileId actor entries
      refine (stable_of_pending _ q fun ws => ∃ rest,
        ws = .profile n.profileId base cur :: rest ∧ ∀ w ∈ rest, w.Aside).bind ?_ hlog
          ⟨[], rfl, List.forall_mem_nil DataWrite.Aside⟩ fun logged ws u _ hws => ?_
      · rintro _ _ w hw ⟨rest, rfl, hrest⟩
        exact ⟨rest ++ [w], rfl, List.forall_mem_append.mpr ⟨hrest, List.forall_mem_singleton.mpr hw⟩⟩
      · cases logged with
        | false => exact safe_pure fun h => by cases h
        | true =>
          obtain ⟨rest, rfl, hrest⟩ := hws
          refine safe_publish _ fun v _ hinv _ => ⟨(users_applyAll _ v.data).trans hinv,
            ⟨[n], rfl, ?_⟩, safe_pure fun _ => rfl⟩
          exact (followsWorkflow_of_change hbase hcur hrest).trans (passesAgain_singleton v n).symm
  refine hsaved.bind fun saved ws t hws => ?_
  cases saved with
  | false => exact hfailed.safe_anyEnd
  | true =>
    rw [hws rfl]
    exact hf t

theorem safe_scoped (roles : List UserRole) (detail : String) (caller : Option Uuid) (profileId : Uuid)
    {f : Uuid × User → LoadedProfile → Handler (Except HttpError α)}
    (hf : ∀ admin loaded t, (f admin loaded).Safe (procedureDiscipline users) q anyEnd [] t) :
    (do
      let admin ← Callers.requireRole Data.users roles detail caller
      match admin with
      | .error e => return .error e
      | .ok admin =>
        let loaded ← getProfileMutable profileId admin.2
        match loaded with
        | .error e => return .error e
        | .ok loaded => f admin loaded : Handler (Except HttpError α)).Safe (procedureDiscipline users) q
      anyEnd [] s := by
  refine (Callers.only_requireRole Data.users roles detail caller).bind_safe fun admin t _ => ?_
  cases admin with
  | error e => exact safe_pure trivial
  | ok admin =>
    refine (only_getProfileMutable profileId admin.2).bind_safe fun loaded t _ => ?_
    cases loaded with
    | error e => exact safe_pure trivial
    | ok loaded => exact hf admin loaded t

theorem safe_submitProfile (profileId : Uuid) (caller : Option Uuid) :
    (submitProfile profileId caller).Safe (procedureDiscipline users) q anyEnd [] s := by
  refine safe_scoped Callers.adminRoles _ caller profileId fun admin loaded t => ?_
  split
  · exact safe_pure trivial
  · rename_i h
    exact safe_change (n := .submitted profileId) rfl (not_not.mp h) rfl
      (fun _ => (only_refreshProfile profileId).safe_anyEnd) (only_pure trivial)

theorem safe_reviewProfile (profileId : Uuid) (body : SystemProfileReview) (caller : Option Uuid) :
    (reviewProfile profileId body caller).Safe (procedureDiscipline users) q anyEnd [] s := by
  refine safe_scoped superRoles _ caller profileId fun admin loaded t => ?_
  split
  · exact safe_pure trivial
  · rename_i h
    have hbase : loaded.profile.status ∈ [ProfileStatus.pendingReview] :=
      List.mem_singleton.mpr (not_not.mp h)
    refine safe_answer _ fun u env _ _ => ?_
    cases body.action with
    | approve =>
      cases given body.decisionNumber with
      | none => exact safe_pure trivial
      | some number =>
        exact safe_change (n := .approved profileId) rfl hbase rfl
          (fun _ => (only_refreshProfile profileId).safe_anyEnd) (only_pure trivial)
    | reject =>
      cases given (body.reviewNote.map strip) with
      | none => exact safe_pure trivial
      | some note =>
        exact safe_change (n := .rejected profileId) rfl hbase rfl
          (fun _ => (only_refreshProfile profileId).safe_anyEnd) (only_pure trivial)

theorem safe_reportImplementation (profileId : Uuid) (note : Option String) (caller : Option Uuid) :
    (reportImplementation profileId note caller).Safe (procedureDiscipline users) q anyEnd [] s := by
  refine safe_scoped Callers.adminRoles _ caller profileId fun admin loaded t => ?_
  split_ifs with h
  · exact safe_pure trivial
  · exact safe_pure trivial
  · exact safe_pure trivial
  · exact safe_change (n := .reported profileId) rfl (List.mem_singleton.mpr (not_not.mp h)) rfl
      (fun _ => (only_detailMutable profileId admin.2).safe_anyEnd) (only_pure trivial)

theorem safe_confirmImplementation (profileId : Uuid) (reviewNote : Option String)
    (caller : Option Uuid) :
    (confirmImplementation profileId reviewNote caller).Safe (procedureDiscipline users) q anyEnd
      [] s := by
  refine safe_scoped superRoles _ caller profileId fun admin loaded t => ?_
  split
  · exact safe_pure trivial
  · rename_i h
    refine safe_answer _ fun u env _ _ => ?_
    exact safe_change (n := .confirmed profileId) rfl (List.mem_singleton.mpr (not_not.mp h)) rfl
      (fun _ => (only_detailMutable profileId admin.2).safe_anyEnd) (only_pure trivial)

theorem get_of_callerWith {roles : List UserRole} {d : Data} {caller : Option Uuid} {id : Uuid}
    {user : User} (h : Callers.callerWith Data.users roles d caller = some (id, user)) :
    d.users.get id = some user := by
  obtain ⟨k, -, hk⟩ := Option.bind_eq_some_iff.mp h
  obtain ⟨row, hrow, hpair⟩ := Option.map_eq_some_iff.mp hk
  obtain ⟨rfl, rfl⟩ := Prod.mk.inj hpair
  exact (Option.filter_eq_some_iff.mp hrow).1

theorem starts_profile {creator : Uuid × User} (hcreator : users.get creator.1 = some creator.2)
    (body : SystemProfileCreate) (code : String) (time : Time) :
    Starts users (body.profile creator code time) := by
  cases hdirect : body.approvedDirectly creator.2 with
  | false =>
    refine Or.inl ?_
    rw [SystemProfileCreate.profile, hdirect]
    rfl
  | true =>
    refine Or.inr ⟨?_, creator.2, hcreator, ?_⟩
    · rw [SystemProfileCreate.profile, hdirect]
      rfl
    · rw [SystemProfileCreate.approvedDirectly, Bool.and_eq_true] at hdirect
      exact hdirect.1

theorem safe_createProfile (body : SystemProfileCreate) (caller : Option Uuid) :
    (createProfile body caller).Safe (procedureDiscipline users) q anyEnd [] s := by
  refine Callers.safe_requireRole Data.users Callers.adminRoles _ caller (fun _ _ _ => safe_pure trivial)
    fun id user t _ hinv hcaller => ?_
  have hcreator : users.get id = some user := by
    rw [← get_of_callerWith hcaller, ← hinv]
    rfl
  have haside : ∀ w : DataWrite, w.Aside → w.Steady users true := steady_of_aside
  dsimp only
  split
  · exact safe_pure trivial
  · refine (safe_createProfileWithUniqueCode body (id, user) 5 [] t).bind fun created ws v hcreated => ?_
    rcases hcreated with ⟨e, rfl, -⟩ | ⟨p, code, time, rfl, rfl⟩
    · exact safe_pure trivial
    · have hnew : ∀ w ∈ [DataWrite.newProfile p (body.profile (id, user) code time)],
          w.Steady users true :=
        List.forall_mem_singleton.mpr ⟨rfl, starts_profile hcreator body code time⟩
      refine safe_of_steady_after true ?_ hnew
      have hcommit : (commitProfile p (body.profile (id, user) code time)
          { body.profile (id, user) code time with
            managedBy := body.managedBy
            documentNumber := body.documentNumber
            documentDate := body.documentDate }
          [("created", body.message)] [] (id, user)).Only (DataWrite.Steady users true) ([] = ·)
            fun _ => True := by
        refine only_commitProfile haside ?_ _ rfl (id, user)
        exact ⟨rfl, rfl⟩
      refine hcommit.bind fun saved _ => ?_
      cases saved with
      | false => exact only_pure trivial
      | true => exact only_syncProfile haside p rfl

theorem safe_updateProfile (profileId : Uuid) (body : SystemProfileUpdate) (caller : Option Uuid) :
    (updateProfile profileId body caller).Safe (procedureDiscipline users) q anyEnd [] s := by
  have haside : ∀ w : DataWrite, w.Aside → w.Steady users false := steady_of_aside
  refine safe_scoped Callers.adminRoles _ caller profileId fun admin loaded t => ?_
  have hanswer : (if body.levelChanged loaded.profile then syncProfile profileId
      else refreshProfile profileId).Only (DataWrite.Steady users false) ([] = ·) fun _ => True := by
    split
    · exact only_syncProfile haside profileId rfl
    · exact only_refreshProfile profileId
  dsimp only
  split
  · exact safe_pure trivial
  split
  · exact safe_pure trivial
  by_cases hrejected : loaded.profile.status = .rejected
  · rw [if_pos hrejected]
    refine safe_change (n := .reopened profileId) rfl (List.mem_singleton.mpr hrejected) ?_
      (fun _ => safe_of_steady false hanswer) (only_pure trivial)
    exact (reopened_status body loaded.profile).trans (if_pos hrejected)
  · rw [if_neg hrejected]
    have hstatus : (body.assign loaded.profile).reopened.status = loaded.profile.status :=
      (reopened_status body loaded.profile).trans (if_neg hrejected)
    have hcreated : (body.assign loaded.profile).reopened.createdBy = loaded.profile.createdBy := by
      rw [SystemProfile.reopened]
      split
      · rfl
      · rfl
    have hcommit : (commitProfile profileId loaded.profile (body.assign loaded.profile).reopened
        (body.entries loaded.profile) [] admin).Only (DataWrite.Steady users false) ([] = ·)
          fun _ => True :=
      only_commitProfile haside ⟨hstatus, hcreated⟩ _ rfl admin
    refine safe_of_steady false (hcommit.bind fun saved _ => ?_)
    cases saved with
    | false => exact only_pure trivial
    | true => exact hanswer

/-- **Every request** commits changes of statuses as it announces them. -/
theorem safe_profileHandler (request : ProfileRequest × Option Uuid) :
    (profileHandler request).Safe (procedureDiscipline users) q anyEnd [] s := by
  have haside : ∀ w : DataWrite, w.Aside → w.Steady users false := steady_of_aside
  suffices hroute : (profileRoute request).Safe (procedureDiscipline users) q anyEnd [] s from
    hroute.bind fun _ _ _ _ => trivial
  obtain ⟨request, caller⟩ := request
  cases request with
  | get p => exact (safe_of_steady false (only_getProfile p caller)).bind fun _ _ _ _ => trivial
  | create body => exact (safe_createProfile body caller).bind fun _ _ _ _ => trivial
  | update p body => exact (safe_updateProfile p body caller).bind fun _ _ _ _ => trivial
  | delete p =>
    exact (safe_of_steady false (only_deleteProfile haside p caller rfl rfl)).bind fun _ _ _ _ => trivial
  | submit p => exact (safe_submitProfile p caller).bind fun _ _ _ _ => trivial
  | review p body => exact (safe_reviewProfile p body caller).bind fun _ _ _ _ => trivial
  | report p note => exact (safe_reportImplementation p note caller).bind fun _ _ _ _ => trivial
  | confirm p note => exact (safe_confirmImplementation p note caller).bind fun _ _ _ _ => trivial
  | requestReview p row evidence =>
    exact (safe_of_steady false (only_requestRequirementReview haside p row evidence caller rfl)).bind
      fun _ _ _ _ => trivial
  | reviewRequirement p row body =>
    exact (safe_of_steady false (only_reviewRequirement haside p row body caller rfl)).bind
      fun _ _ _ _ => trivial
  | createLevel body =>
    exact (safe_of_steady false (only_createLevelRequirement haside body caller rfl)).bind
      fun _ _ _ _ => trivial
  | updateLevel id body =>
    exact (safe_of_steady false (only_updateLevelRequirement haside id body caller rfl)).bind
      fun _ _ _ _ => trivial
  | deleteLevel id =>
    exact (safe_of_steady false (only_deleteLevelRequirement haside id caller rfl)).bind
      fun _ _ _ _ => trivial

end Routes

/-! ## Runs -/

/-- The engine that runs the requests. -/
abbrev profileStep : Engine Data RowKey DataWrite Env Note → Op (ProfileRequest × Option Uuid) Env →
    Option (Engine Data RowKey DataWrite Env Note) :=
  Engine.step profileHandler

theorem commitsOnly_passesAgain_iff {g : Engine Data RowKey DataWrite Env Note}
    {op : Op (ProfileRequest × Option Uuid) Env} :
    CommitsOnly PassesAgain g op ↔ PassesAgain g.store [] (g.announced op) := by
  cases op with
  | begin p request => exact iff_of_true trivial (List.forall_mem_nil _)
  | abort p => exact iff_of_true trivial (List.forall_mem_nil _)
  | run p e =>
    rw [CommitsOnly, Engine.announced]
    cases (g.txns p).prog.note? with
    | none => exact iff_of_true (fun _ h => by cases h) (List.forall_mem_nil _)
    | some note => exact ⟨fun h => h note rfl, fun h _ hn => Option.some.inj hn ▸ h⟩

/-- **The procedure under interleaving**: in every interleaving of requests, a step takes the statuses along
the edges of the procedure exactly when a status that it changes still passes the check. -/
theorem followsWorkflow_iff {s : Store Data RowKey Note} {g g' : Engine Data RowKey DataWrite Env Note}
    (hrun : Runs profileStep anyAction (Engine.start s) g) {op : Op (ProfileRequest × Option Uuid) Env}
    (hstep : profileStep g op = some g') :
    FollowsWorkflow g.store.data g'.store.data ↔ CommitsOnly PassesAgain g op := by
  have hanything : ∀ (g : Engine Data RowKey DataWrite Env Note)
      (op : Op (ProfileRequest × Option Uuid) Env), (procedureDiscipline s.data.users).Permits g op :=
    Discipline.permits_of_always (fun _ _ _ => trivial) fun _ _ _ => trivial
  have hsafe : AllSafe (procedureDiscipline s.data.users) g := allSafe_of_runs
    (fun _ request _ _ => safe_profileHandler request) (allSafe_start rfl)
    (hrun.mono fun g op _ => hanything g op)
  obtain ⟨-, -, note, hevents, hiff⟩ := safe_step
    (fun _ request _ _ => safe_profileHandler request) hsafe (hanything g op) hstep
  rw [Engine.events_step hstep] at hevents
  rw [hiff, commitsOnly_passesAgain_iff, List.append_cancel_right hevents]

/-! A profile that is decided on twice. -/

/-- The tables of `exampleProfiles`. -/
def profileStore : Store Data RowKey Note := ⟨exampleProfiles.data, fun _ => none, [], []⟩

/-- Some statements of a transaction. -/
def statements (q : TxId) (n : ℕ) : List (Op (ProfileRequest × Option Uuid) Env) :=
  List.replicate n (.run q (exampleAnswers 0))

/-- The administrator of the organisation makes the profile `0` and submits it. -/
def exampleSubmission : List (Op (ProfileRequest × Option Uuid) Env) :=
  [.begin 0 (.create exampleCreate, some 1)] ++ statements 0 27 ++ [.begin 1 (.submit 0, some 1)] ++
    statements 1 19

/-- The super administrator approves the profile, and rejects it. -/
def exampleApproval : ProfileRequest × Option Uuid :=
  (.review 0 ⟨.approve, some "12/QĐ", none, none, none⟩, some 0)

def exampleRejection : ProfileRequest × Option Uuid :=
  (.review 0 ⟨.reject, none, none, none, some "Thiếu sơ đồ"⟩, some 0)

/-- **An approval over a rejection**: both have read that the profile waits, and what has been rejected is
approved. -/
theorem approval_over_rejection : ¬ ∀ (s : Store Data RowKey Note)
    (g g' : Engine Data RowKey DataWrite Env Note) (op : Op (ProfileRequest × Option Uuid) Env),
    Runs profileStep anyAction (Engine.start s) g → profileStep g op = some g' →
      FollowsWorkflow g.store.data g'.store.data := by
  intro h
  obtain ⟨g, hrun, hg⟩ := exists_runs_of_exec (G := anyAction) profileStep (Engine.start profileStore)
    (exampleSubmission ++ [.begin 2 exampleApproval, .begin 3 exampleRejection] ++ statements 2 8 ++
      statements 3 14 ++ statements 2 5)
    (p := fun g => decide (statusOf g.store.data 0 = some .rejected) &&
      (profileStep g (.run 2 (exampleAnswers 0))).any fun g' =>
        decide (statusOf g'.store.data 0 = some .approved)) (by decide +kernel)
  rw [Bool.and_eq_true, decide_eq_true_iff, Option.any_eq_true] at hg
  obtain ⟨hbefore, g', hstep, hafter⟩ := hg
  obtain ⟨row, hrow, hstatus⟩ := Option.map_eq_some_iff.mp hbefore
  obtain ⟨row', hrow', hstatus'⟩ := Option.map_eq_some_iff.mp (of_decide_eq_true hafter)
  have hmoves := (h profileStore g g' _ hrun hstep).moves 0 row row' hrow hrow'
  rw [hstatus, hstatus'] at hmoves
  rcases hmoves with hsame | hedge
  · cases hsame
  · cases hedge

theorem followsWorkflow_of_rejection : ∃ g g', Runs profileStep anyAction (Engine.start profileStore) g ∧
    profileStep g (.run 3 (exampleAnswers 0)) = some g' ∧
      statusOf g.store.data 0 = some .pendingReview ∧ statusOf g'.store.data 0 = some .rejected ∧
        FollowsWorkflow g.store.data g'.store.data := by
  obtain ⟨g, hrun, hg⟩ := exists_runs_of_exec (G := anyAction) profileStep (Engine.start profileStore)
    (exampleSubmission ++ [.begin 2 exampleApproval, .begin 3 exampleRejection] ++ statements 2 8 ++
      statements 3 13)
    (p := fun g => decide (statusOf g.store.data 0 = some .pendingReview ∧
        CommitsOnly PassesAgain g (.run 3 (exampleAnswers 0) : Op (ProfileRequest × Option Uuid) Env)) &&
      (profileStep g (.run 3 (exampleAnswers 0))).any fun g' =>
        decide (statusOf g'.store.data 0 = some .rejected)) (by decide +kernel)
  rw [Bool.and_eq_true, decide_eq_true_iff, Option.any_eq_true] at hg
  obtain ⟨⟨hbefore, hpasses⟩, g', hstep, hafter⟩ := hg
  exact ⟨g, g', hrun, hstep, hbefore, of_decide_eq_true hafter,
    (followsWorkflow_iff hrun hstep).mpr hpasses⟩

end AssetInventory.Profiles

import AssetInventory.Fleet.Portal
import AssetInventory.Lib.Veil

/-!
# Users keep to their organisations

A user who is not a super administrator sees an organisation and what is below it.  The requests of such
a user about machines read and change nothing of any other machine, except for the request to
investigate a machine, which looks the machine up and no more.

* `scopeOf`: the machines, attempts and changes of fingerprints that a user may see; `Data.within`: the
  data with these alone; `Data.outside`: what is stored of the others.
* `orgVeil`: the veil between the two.
* `Isolated`: a request is answered the same without the machines of other organisations, and leaves
  what is stored of them as it was.
* `isolated_iff`: the requests that succeed and are isolated.
-/

namespace AssetInventory.Fleet

open PyJson PyTime Orm RowStore ReadCommitted Server

/-! ## The scope of a user -/

/-- Machines, attempts to enroll and changes of fingerprints. -/
structure Scope where
  machine : Uuid → Bool
  attempt : Uuid → Bool
  drift : Uuid → Bool

/-- What is not stored under an organisation that the user may not see. -/
def scopeOf (data : Data) (user : User) : Scope where
  machine := fun id => (data.machines.get id).all fun m => decide (m.orgId ∈ visibleOrgs data user)
  attempt := fun id => (data.attempts.get id).all fun a =>
    a.orgId.any fun orgId => decide (orgId ∈ visibleOrgs data user)
  drift := fun id => (data.drifts.get id).all fun x =>
    (data.machines.get x.machineId).all fun m => decide (m.orgId ∈ visibleOrgs data user)

/-- The data without the machines, attempts and changes out of scope, and without what is stored of
these machines. -/
def Data.within (d : Data) (σ : Scope) : Data :=
  { d with
    machines := d.machines.restrict fun id _ => σ.machine id
    attempts := d.attempts.restrict fun id _ => σ.attempt id
    drifts := d.drifts.restrict fun id _ => σ.drift id
    machineTags := d.machineTags.filter fun t => σ.machine t.machineId
    investigations := d.investigations.restrict fun _ inv => σ.machine inv.machineId
    specs := d.specs.filter fun s => σ.machine s.machineId
    current := d.current.restrict fun id _ => σ.machine id
    software := d.software.filter fun s => σ.machine s.machineId
    heartbeats := d.heartbeats.filter fun h => σ.machine h.machineId }

/-- What is stored of machines. -/
structure MachineData where
  machines : Table Uuid Machine
  attempts : Table Uuid EnrollAttempt
  drifts : Table Uuid FingerprintDrift
  machineTags : List MachineTag
  dfirRequests : Table Uuid DfirRequest
  investigations : Table Uuid Investigation
  specs : List MachineSpec
  current : Table Uuid MachineCurrent
  software : List MachineSoftware
  heartbeats : List Heartbeat

/-- What is stored of the machines out of scope. -/
def Data.outside (d : Data) (σ : Scope) : MachineData where
  machines := d.machines.restrict fun id _ => !σ.machine id
  attempts := d.attempts.restrict fun id _ => !σ.attempt id
  drifts := d.drifts.restrict fun id _ => !σ.drift id
  machineTags := d.machineTags.filter fun t => !σ.machine t.machineId
  dfirRequests := d.dfirRequests.restrict fun _ req => !σ.machine req.machineId
  investigations := d.investigations.restrict fun _ inv => !σ.machine inv.machineId
  specs := d.specs.filter fun s => !σ.machine s.machineId
  current := d.current.restrict fun id _ => !σ.machine id
  software := d.software.filter fun s => !σ.machine s.machineId
  heartbeats := d.heartbeats.filter fun h => !σ.machine h.machineId

/-- A write within the scope, of the kinds that the portal has. -/
def DataWrite.Within (σ : Scope) : DataWrite → Prop
  | .machine id _ _ => σ.machine id = true
  | .attempt id _ _ => σ.attempt id = true
  | .drift id _ _ => σ.drift id = true
  | .newToken _ _ => True
  | .newUser _ _ => True
  | .clearTags machineId _ => σ.machine machineId = true
  | .newTag row => σ.machine row.machineId = true
  | .newDfirRequest _ row => σ.machine row.machineId = true
  | _ => False

section Veil

variable {σ : Scope} {w : DataWrite} {d : Data}

theorem within_apply (h : w.Within σ) :
    (Applies.apply w d).within σ = Applies.apply w (d.within σ) := by
  cases w with
  | machine id base cur =>
    exact congrArg (fun t => { d.within σ with machines := t })
      (Table.restrict_modify (p := fun id _ => σ.machine id) _ fun _ => rfl)
  | attempt id base cur =>
    exact congrArg (fun t => { d.within σ with attempts := t })
      (Table.restrict_modify (p := fun id _ => σ.attempt id) _ fun _ => rfl)
  | drift id base cur =>
    exact congrArg (fun t => { d.within σ with drifts := t })
      (Table.restrict_modify (p := fun id _ => σ.drift id) _ fun _ => rfl)
  | newToken id row => rfl
  | newUser id row => rfl
  | clearTags machineId kind =>
    exact congrArg (fun t => { d.within σ with machineTags := t }) (List.filter_comm _ _ _)
  | newTag row =>
    have hrow : [row].filter (fun t => σ.machine t.machineId) = [row] := List.filter_cons_of_pos h
    refine congrArg (fun t => { d.within σ with machineTags := t }) ?_
    exact (List.filter_append _ _).trans (congrArg _ hrow)
  | newDfirRequest id row => rfl
  | _ => exact h.elim

theorem outside_apply (h : w.Within σ) : (Applies.apply w d).outside σ = d.outside σ := by
  cases w with
  | machine id base cur =>
    exact congrArg (fun t => { d.outside σ with machines := t })
      (Table.restrict_modify_of_not (p := fun id _ => !σ.machine id) _ fun _ => (Bool.not_eq_false' _).mpr h)
  | attempt id base cur =>
    exact congrArg (fun t => { d.outside σ with attempts := t })
      (Table.restrict_modify_of_not (p := fun id _ => !σ.attempt id) _ fun _ => (Bool.not_eq_false' _).mpr h)
  | drift id base cur =>
    exact congrArg (fun t => { d.outside σ with drifts := t })
      (Table.restrict_modify_of_not (p := fun id _ => !σ.drift id) _ fun _ => (Bool.not_eq_false' _).mpr h)
  | newToken id row => rfl
  | newUser id row => rfl
  | clearTags machineId kind =>
    refine congrArg (fun t => { d.outside σ with machineTags := t }) ?_
    refine List.filter_filter.trans (List.filter_congr fun t _ => ?_)
    by_cases ht : t.machineId = machineId
    · rw [ht, (Bool.not_eq_false' _).mpr h, Bool.false_and]
    · simp [ht]
  | newTag row =>
    have hrow : [row].filter (fun t => !σ.machine t.machineId) = [] :=
      List.filter_cons_of_neg (by rw [(Bool.not_eq_false' _).mpr h]; exact Bool.false_ne_true)
    refine congrArg (fun t => { d.outside σ with machineTags := t }) ?_
    exact (List.filter_append _ _).trans ((congrArg _ hrow).trans (List.append_nil _))
  | newDfirRequest id row =>
    exact congrArg (fun t => { d.outside σ with dfirRequests := t })
      (Table.restrict_insert_of_not (p := fun _ (req : DfirRequest) => !σ.machine req.machineId)
        ((Bool.not_eq_false' (σ.machine row.machineId)).mpr h))
  | _ => exact h.elim

end Veil

/-- **The veil between the organisations.** -/
def orgVeil (σ : Scope) : Veil Data DataWrite MachineData where
  shown := fun d => d.within σ
  covered := fun d => d.outside σ
  Clear := DataWrite.Within σ
  shown_apply := within_apply
  covered_apply := outside_apply

/-! ## Callers and machines in scope -/

section Discreet

variable {α : Type} {σ : Scope} {x : Alone Data DataWrite Env} {user : User} {caller : Option Uuid}

/-- The routes start with the data in which the scope was taken. -/
structure Starting (σ : Scope) (user : User) (caller : Option Uuid) (x : Alone Data DataWrite Env) :
    Prop where
  caller : caller.bind x.view.users.get = some user
  scope : scopeOf x.view user = σ

theorem looks_getCurrentUser (h : caller.bind x.view.users.get = some user) :
    (getCurrentUser caller).Looks (orgVeil σ) (fun r => r.2 = user) x := by
  cases caller with
  | none => cases h
  | some id =>
    have hget : x.view.users.get id = some user := h
    refine looks_select (v := orgVeil σ) rfl ?_
    cases hactive : (x.view.users.get id).filter User.isActive with
    | none => exact looks_error
    | some found =>
      have hsame : found = user :=
        Option.some.inj ((Option.filter_eq_some_iff.mp hactive).1.symm.trans hget)
      dsimp only
      split
      · exact looks_error
      · exact looks_ok hsame

theorem looks_requireAdmin (h : caller.bind x.view.users.get = some user) :
    (requireAdmin caller).Looks (orgVeil σ) (fun r => r.2 = user) x := by
  refine (looks_getCurrentUser h).bind (fun _ => rfl) fun r hr => ?_
  dsimp only
  split
  · exact looks_ok hr
  · exact looks_error

variable {machineId attemptId driftId : Uuid}

theorem get_within (h : σ.machine machineId = true) (d : Data) :
    (d.within σ).machines.get machineId = d.machines.get machineId := by
  change (d.machines.get machineId).filter (fun _ => σ.machine machineId) = _
  rw [h]
  cases d.machines.get machineId <;> rfl

variable {d : Data}

theorem exists_of_not_machine (h : ¬ (scopeOf d user).machine machineId = true) :
    ∃ machine, d.machines.get machineId = some machine ∧ machine.orgId ∉ visibleOrgs d user := by
  cases hget : d.machines.get machineId with
  | none => exact absurd (by simp [scopeOf, hget]) h
  | some machine => exact ⟨machine, rfl, fun hm => h (by simp [scopeOf, hget, hm])⟩

theorem exists_of_not_attempt (h : ¬ (scopeOf d user).attempt attemptId = true) :
    ∃ attempt, d.attempts.get attemptId = some attempt ∧
      ¬ ∃ orgId, attempt.orgId = some orgId ∧ orgId ∈ visibleOrgs d user := by
  cases hget : d.attempts.get attemptId with
  | none => exact absurd (by simp [scopeOf, hget]) h
  | some attempt =>
    refine ⟨attempt, rfl, ?_⟩
    rintro ⟨orgId, horgId, hm⟩
    exact h (by simp [scopeOf, hget, horgId, hm])

theorem exists_of_not_drift (h : ¬ (scopeOf d user).drift driftId = true) :
    ∃ drift machine, d.drifts.get driftId = some drift ∧
      d.machines.get drift.machineId = some machine ∧ machine.orgId ∉ visibleOrgs d user := by
  cases hget : d.drifts.get driftId with
  | none => exact absurd (by simp [scopeOf, hget]) h
  | some drift =>
    have hout : ¬ (scopeOf d user).machine drift.machineId = true := fun hm =>
      h (by simpa [scopeOf, hget] using hm)
    obtain ⟨machine, hmachine, horg⟩ := exists_of_not_machine hout
    exact ⟨drift, machine, rfl, hmachine, horg⟩

theorem machine_of_drift {drift : FingerprintDrift}
    (hscope : scopeOf d user = σ) (hdrift : d.drifts.get driftId = some drift)
    (h : σ.drift driftId = true) : σ.machine drift.machineId = true := by
  subst hscope
  simpa only [scopeOf, hdrift, Option.all_some] using h

theorem looks_getMachineInScope {refusal : String} (hscope : scopeOf x.view user = σ) :
    (getMachineInScope machineId user refusal).Looks (orgVeil σ)
      (fun _ => σ.machine machineId = true) x := by
  by_cases hin : σ.machine machineId = true
  · refine looks_select (v := orgVeil σ) rfl (looks_select (v := orgVeil σ) (get_within hin _) ?_)
    cases x.view.machines.get machineId with
    | none => exact looks_error
    | some machine =>
      dsimp only
      split
      · exact looks_ok hin
      · exact looks_error
  · -- the machine of another organisation is refused
    obtain ⟨machine, hget, horg⟩ := exists_of_not_machine (hscope ▸ hin)
    have hrefused : ((getMachineInScope machineId user refusal).alone x).1 = .error ⟨403, refusal⟩ := by
      rw [getMachineInScope, alone_select, alone_select, hget]
      dsimp only
      rw [if_neg horg]
      rfl
    intro _ hok
    rw [hrefused] at hok
    cases hok

theorem looks_getAttemptInScope (hscope : scopeOf x.view user = σ)
    (hsuper : isSuperAdmin user = false) :
    (getAttemptInScope attemptId user).Looks (orgVeil σ) (fun _ => σ.attempt attemptId = true) x := by
  by_cases hin : σ.attempt attemptId = true
  · have hget : ((x.view.within σ).attempts.get attemptId) = x.view.attempts.get attemptId := by
      change (x.view.attempts.get attemptId).filter (fun _ => σ.attempt attemptId) = _
      rw [hin]
      cases x.view.attempts.get attemptId <;> rfl
    refine looks_select (v := orgVeil σ) hget ?_
    cases x.view.attempts.get attemptId with
    | none => exact looks_error
    | some attempt =>
      dsimp only
      cases attempt.orgId with
      | none =>
        dsimp only
        rw [hsuper]
        exact looks_error
      | some orgId =>
        refine looks_select (v := orgVeil σ) rfl ?_
        split
        · exact looks_ok hin
        · exact looks_error
  · -- an attempt that no organisation of the user's has is refused
    obtain ⟨attempt, hget, horg⟩ := exists_of_not_attempt (hscope ▸ hin)
    intro _ hok
    rw [getAttemptInScope, alone_select, hget] at hok
    dsimp only at hok
    cases horgId : attempt.orgId with
    | none =>
      rw [horgId] at hok
      dsimp only at hok
      rw [hsuper] at hok
      cases hok
    | some orgId =>
      rw [horgId] at hok
      dsimp only at hok
      rw [alone_select, if_neg fun h => horg ⟨orgId, horgId, h⟩] at hok
      cases hok

end Discreet

/-! ## What is read of a machine in scope -/

section Within

variable {σ : Scope} {machineId : Uuid}

theorem filter_filter_of_imp {R : Type} {p q : R → Bool} (h : ∀ r, p r = true → q r = true)
    (l : List R) : (l.filter q).filter p = l.filter p := by
  rw [List.filter_filter]
  refine List.filter_congr fun r _ => ?_
  cases hp : p r with
  | false => rfl
  | true => rw [h r hp]; rfl

theorem latestSpec_within (h : σ.machine machineId = true) (d : Data) (first : ℕ) :
    latestSpec (d.within σ) machineId first = latestSpec d machineId first := by
  have hspecs : specsOf (d.within σ) machineId = specsOf d machineId :=
    filter_filter_of_imp (fun s hs => by rw [of_decide_eq_true hs]; exact h) d.specs
  rw [latestSpec, hspecs]
  rfl

theorem machineTagsOf_within (h : σ.machine machineId = true) (collation : String → ℕ) (d : Data) :
    machineTagsOf collation (d.within σ) machineId = machineTagsOf collation d machineId := by
  have htags : (d.within σ).machineTags.filter (fun t => decide (t.machineId = machineId)) =
      d.machineTags.filter fun t => decide (t.machineId = machineId) :=
    filter_filter_of_imp (fun t ht => by rw [of_decide_eq_true ht]; exact h) d.machineTags
  rw [machineTagsOf, htags]
  rfl

theorem heartbeatsSince_within (h : σ.machine machineId = true) (d : Data) (cutoff : Time) :
    heartbeatsSince (d.within σ) machineId cutoff = heartbeatsSince d machineId cutoff := by
  have hbeats : (d.within σ).heartbeats.filter
        (fun b => decide (b.machineId = machineId ∧ cutoff ≤ b.ts)) =
      d.heartbeats.filter fun b => decide (b.machineId = machineId ∧ cutoff ≤ b.ts) :=
    filter_filter_of_imp (fun b hb => by rw [(of_decide_eq_true hb).1]; exact h) d.heartbeats
  rw [heartbeatsSince, hbeats]
  rfl

theorem investigationsOf_within (h : σ.machine machineId = true) (d : Data)
    (statusFilter : Option String) :
    investigationsOf (d.within σ) machineId statusFilter = investigationsOf d machineId statusFilter :=
  Table.rowsWhere_restrict fun _ inv _ hinv => by
    rw [of_decide_eq_true (Bool.and_eq_true_iff.mp hinv).1]
    exact h

theorem visible_within {d : Data} {user : User} (hscope : scopeOf d user = σ) (ids : List Uuid) :
    ((d.within σ).machines.rowsAmong ids).filter
        (fun m => decide (m.2.orgId ∈ visibleOrgs d user)) =
      (d.machines.rowsAmong ids).filter fun m => decide (m.2.orgId ∈ visibleOrgs d user) := by
  rw [Table.rowsAmong, Table.rowsAmong, List.filter_filterMap, List.filter_filterMap]
  refine List.filterMap_congr fun id _ => ?_
  by_cases hin : σ.machine id = true
  · rw [get_within hin]
  · obtain ⟨machine, hget, horg⟩ := exists_of_not_machine (hscope ▸ hin)
    have hnone : (d.within σ).machines.get id = none := by
      change (d.machines.get id).filter (fun _ => σ.machine id) = none
      rw [Bool.eq_false_iff.mpr hin]
      cases d.machines.get id <;> rfl
    rw [hnone, hget, Option.map_none, Option.filter_none, Option.map_some, Option.filter_some,
      if_neg (by rw [decide_eq_false horg]; exact Bool.false_ne_true)]

variable {ids : List Uuid}

theorem machine_of_visible {d : Data} {user : User} (hscope : scopeOf d user = σ)
    {m : Uuid × Machine} (hm : m ∈ d.machines.rowsAmong ids) (horg : m.2.orgId ∈ visibleOrgs d user) :
    
    σ.machine m.1 = true := by
  obtain ⟨id, -, hrow⟩ := List.mem_filterMap.mp hm
  obtain ⟨machine, hget, rfl⟩ := Option.map_eq_some_iff.mp hrow
  rw [← hscope]
  simp only [scopeOf, hget, Option.all_some]
  exact decide_eq_true horg

end Within

/-! ## Parts that write in scope -/

section Blind

variable {σ : Scope} {x : Alone Data DataWrite Env} {machineId : Uuid}

theorem blind_flushMachine {base cur : Machine} (h : σ.machine machineId = true) :
    (flushMachine machineId base cur).Blind (orgVeil σ) x := by
  rw [flushMachine]
  split
  · exact blind_pure
  · exact blind_update_one (v := orgVeil σ) h rfl blind_pure

theorem blind_flushAttempt {attemptId : Uuid} {base cur : EnrollAttempt}
    (h : σ.attempt attemptId = true) :
    (flushAttempt attemptId base cur).Blind (orgVeil σ) x :=
  blind_update_one (v := orgVeil σ) h rfl blind_pure

theorem blind_flushDrift {driftId : Uuid} {base cur : FingerprintDrift}
    (h : σ.drift driftId = true) : (flushDrift driftId base cur).Blind (orgVeil σ) x :=
  blind_update_one (v := orgVeil σ) h rfl blind_pure

theorem blind_setMachineClassification (h : σ.machine machineId = true) (key : String)
    (actor : Option Uuid) : (setMachineClassification machineId key actor).Blind (orgVeil σ) x := by
  rw [setMachineClassification]
  split
  · exact blind_pure
  · refine blind_select (v := orgVeil σ) rfl ?_
    cases tagByKey x.view key with
    | none => exact blind_pure
    | some tag =>
      exact blind_insert (v := orgVeil σ) h (blind_insert (v := orgVeil σ) h blind_pure)

theorem blind_insertTags (h : σ.machine machineId = true) (actor : Option Uuid) (tags : List Tag) :
    (insertTags machineId actor tags).Blind (orgVeil σ) x := by
  induction tags generalizing x with
  | nil => exact blind_pure
  | cons tag tags ih => exact blind_insert (v := orgVeil σ) h ih

theorem blind_setPurposeAll {ids : List Uuid} (purpose : Option (List String)) (actor : Option Uuid)
    (h : ∀ id ∈ ids, σ.machine id = true) :
    (setPurposeAll purpose actor ids).Blind (orgVeil σ) x := by
  induction ids generalizing x with
  | nil => exact blind_pure
  | cons id ids ih =>
    obtain ⟨hid, hids⟩ := List.forall_mem_cons.mp h
    cases purpose with
    | none => exact blind_pure
    | some keys =>
      refine Prog.Blind.bind (blind_select (v := orgVeil σ) rfl ?_) (ih hids)
      exact blind_insert (v := orgVeil σ) hid (blind_insertTags hid actor _)

theorem discreet_classifyAll {ids : List Uuid} (classification : Option String)
    (actor : Option Uuid) (h : ∀ id ∈ ids, σ.machine id = true) :
    (classifyAll classification actor ids).Discreet (orgVeil σ) x := by
  induction ids generalizing x with
  | nil => exact discreet_ok
  | cons id ids ih =>
    obtain ⟨hid, hids⟩ := List.forall_mem_cons.mp h
    cases classification with
    | none => exact discreet_ok
    | some key =>
      refine (blind_setMachineClassification hid key actor).discreet ?_
      split
      · exact ih hids
      · exact discreet_error

theorem discreet_tagAllowed {ids : List Uuid} (body : BulkTagRequest) (actor : Uuid)
    (h : ∀ id ∈ ids, σ.machine id = true) : (tagAllowed body actor ids).Discreet (orgVeil σ) x := by
  rw [tagAllowed]
  split
  · exact discreet_error
  · refine (discreet_classifyAll _ _ h).bind (fun _ => rfl) fun _ _ => ?_
    exact (blind_setPurposeAll _ _ h).discreet (discreet_publish discreet_ok)

theorem blind_assignedInfo (c : PortalSettings) (machine : Machine) :
    (assignedInfo c machineId machine).Blind (orgVeil σ) x :=
  blind_select (v := orgVeil σ) rfl
    (blind_answer (blind_select (v := orgVeil σ) rfl blind_pure))

theorem discreet_assigneeOf (c : PortalSettings) (machine : Machine) (body : AssignUserRequest) :
    (assigneeOf c machine body).Discreet (orgVeil σ) x := by
  cases body with
  | existing userId =>
    cases userId with
    | none => exact discreet_error
    | some userId =>
      refine discreet_select (v := orgVeil σ) rfl ?_
      cases x.view.users.get userId with
      | none => exact discreet_error
      | some user =>
        dsimp only
        split
        · exact discreet_error
        · exact discreet_ok
  | new fullName email phone =>
    rw [assigneeOf]
    split
    · refine discreet_select (v := orgVeil σ) rfl ?_
      split
      · exact discreet_error
      · exact discreet_error
      · exact discreet_fresh (discreet_insert (v := orgVeil σ) trivial discreet_ok)
    · exact discreet_error

theorem blind_requestToOut {id : Uuid} {req : DfirRequest}
    (h : σ.machine req.machineId = true) : (requestToOut id req).Blind (orgVeil σ) x :=
  blind_select (v := orgVeil σ) rfl (blind_select (v := orgVeil σ) (get_within h _) blind_pure)

theorem blind_driftToOut {drift : FingerprintDrift} (h : σ.machine drift.machineId = true) :
    (driftToOut drift).Blind (orgVeil σ) x :=
  blind_select (v := orgVeil σ) (get_within h _) blind_pure

end Blind

/-! ## The routes -/

section Routes

variable {σ : Scope} {x : Alone Data DataWrite Env} {user : User} {caller : Option Uuid}
  (hs : Starting σ user caller x) (c : PortalSettings) (machineId : Uuid)

include hs

theorem discreet_getMachine : (getMachine c machineId caller).Discreet (orgVeil σ) x := by
  refine (looks_getCurrentUser hs.caller).discreet (fun _ => rfl) ?_
  rintro ⟨id, _⟩ rfl
  refine (looks_getMachineInScope hs.scope).discreet (fun _ => rfl) fun machine hin => ?_
  refine discreet_answer (discreet_select (v := orgVeil σ) (latestSpec_within hin _ _) ?_)
  refine (blind_assignedInfo c machine).discreet ?_
  refine discreet_select (v := orgVeil σ) rfl ?_
  exact discreet_select (v := orgVeil σ) (machineTagsOf_within hin _ _) discreet_ok

theorem discreet_machineTimeline (days : ℕ) :
    (machineTimeline machineId days caller).Discreet (orgVeil σ) x := by
  refine (looks_getCurrentUser hs.caller).discreet (fun _ => rfl) ?_
  rintro ⟨id, _⟩ rfl
  refine (looks_getMachineInScope hs.scope).discreet (fun _ => rfl) fun machine hin => ?_
  exact discreet_answer
    (discreet_select (v := orgVeil σ) (heartbeatsSince_within hin _ _) discreet_ok)

theorem discreet_inScope {α : Type} {refusal : String}
    {f : Except HttpError (Uuid × User) → Handler (Except HttpError α)}
    {k : Uuid → Except HttpError Machine → Handler (Except HttpError α)}
    (hf : ∀ id, f (.ok (id, user)) = getMachineInScope machineId user refusal >>= k id)
    (hferror : ∀ e, f (.error e) = pure (.error e))
    (hkerror : ∀ id e, k id (.error e) = pure (.error e))
    (hk : ∀ id machine, σ.machine machineId = true → (k id (.ok machine)).Discreet (orgVeil σ) x) :
    (requireAdmin caller >>= f).Discreet (orgVeil σ) x := by
  refine (looks_requireAdmin hs.caller).discreet hferror ?_
  rintro ⟨id, _⟩ rfl
  rw [hf id]
  exact (looks_getMachineInScope hs.scope).discreet (hkerror id) (hk id)

theorem discreet_approveMachine (threshold : ℤ) (note : Option String) :
    (approveMachine threshold machineId note caller).Discreet (orgVeil σ) x := by
  refine discreet_inScope hs machineId (fun _ => rfl) (fun _ => rfl) (fun _ _ => rfl)
    fun _ machine hin => ?_
  dsimp only
  split
  · exact discreet_error
  · exact discreet_answer ((blind_flushMachine hin).discreet (discreet_publish discreet_ok))

theorem discreet_rejectMachine (note : Option String) :
    (rejectMachine machineId note caller).Discreet (orgVeil σ) x :=
  discreet_inScope hs machineId (fun _ => rfl) (fun _ => rfl) (fun _ _ => rfl)
    fun _ _ hin => (blind_flushMachine hin).discreet (discreet_publish discreet_ok)

theorem discreet_updateLifecycle (lifecycle : Option AssetLifecycle) (note : Option String) :
    (updateLifecycle machineId lifecycle note caller).Discreet (orgVeil σ) x := by
  cases lifecycle with
  | none =>
    exact (looks_requireAdmin hs.caller).discreet (fun _ => rfl) fun _ _ => discreet_error
  | some lifecycle =>
    exact discreet_inScope hs machineId (fun _ => rfl) (fun _ => rfl) (fun _ _ => rfl)
      fun _ _ hin => (blind_flushMachine hin).discreet (discreet_publish discreet_ok)

theorem discreet_listMachineInvestigations (machineId : String) (page limit : ℕ)
    (statusFilter : Option String) :
    (listMachineInvestigations c machineId page limit statusFilter caller).Discreet
    (orgVeil σ) x := by
  rw [listMachineInvestigations]
  cases c.fleet.importing.uuidOf machineId with
  | none =>
    exact (looks_requireAdmin hs.caller).discreet (fun _ => rfl) fun _ _ => discreet_error
  | some id =>
    refine discreet_inScope hs id (fun _ => rfl) (fun _ => rfl) (fun _ _ => rfl)
      fun _ machine hin => ?_
    refine discreet_select (v := orgVeil σ)
      (congrArg List.length (investigationsOf_within hin _ _)) ?_
    exact discreet_answer (discreet_select (v := orgVeil σ)
      (congrArg (inOrder _) (investigationsOf_within hin _ _)) discreet_ok)

theorem discreet_setMachineTags (classification : Option String) (purpose : Option (List String)) :
    (setMachineTags c machineId classification purpose caller).Discreet (orgVeil σ) x := by
  refine discreet_inScope hs machineId (fun _ => rfl) (fun _ => rfl) (fun _ _ => rfl)
    fun id machine hin => ?_
  have hone : ∀ m ∈ [machineId], σ.machine m = true := fun m hm => List.mem_singleton.mp hm ▸ hin
  refine (discreet_classifyAll classification (some id) hone).bind (fun _ => rfl) fun _ _ => ?_
  refine (blind_setPurposeAll purpose (some id) hone).discreet (discreet_publish ?_)
  exact discreet_select (v := orgVeil σ) (machineTagsOf_within hin _ _) discreet_ok

theorem discreet_setMachineTagsBulk (body : BulkTagRequest) :
    (setMachineTagsBulk body caller).Discreet (orgVeil σ) x := by
  refine (looks_requireAdmin hs.caller).discreet (fun _ => rfl) ?_
  rintro ⟨id, _⟩ rfl
  refine discreet_select (v := orgVeil σ) rfl (discreet_answer (discreet_select_of ?_ ?_))
  · -- of the rows that are found, only those that the user may see are used
    exact congrArg (fun rows => tagAllowed body id ((inOrder _ rows).map Prod.fst))
      (visible_within hs.scope body.machineIds)
  · refine discreet_tagAllowed body id fun m hm => ?_
    obtain ⟨row, hrow, rfl⟩ := List.mem_map.mp hm
    obtain ⟨hfound, horg⟩ := List.mem_filter.mp ((List.perm_insertionSort _ _).mem_iff.mp hrow)
    exact machine_of_visible hs.scope hfound (of_decide_eq_true horg)

theorem discreet_assignUser (body : AssignUserRequest) :
    (assignUser c machineId body caller).Discreet (orgVeil σ) x := by
  refine discreet_inScope hs machineId (fun _ => rfl) (fun _ => rfl) (fun _ _ => rfl)
    fun _ machine hin => ?_
  refine (discreet_assigneeOf c machine body).bind (fun _ => rfl) fun assignee _ => ?_
  refine (blind_flushMachine hin).discreet (discreet_publish ?_)
  refine discreet_select (v := orgVeil σ) rfl ?_
  split
  · exact discreet_error
  · exact discreet_ok

theorem discreet_unassignUser : (unassignUser machineId caller).Discreet (orgVeil σ) x := by
  refine discreet_inScope hs machineId (fun _ => rfl) (fun _ => rfl) (fun _ _ => rfl)
    fun _ machine hin => ?_
  dsimp only
  split
  · exact discreet_error
  · exact (blind_flushMachine hin).discreet (discreet_publish discreet_ok)

theorem discreet_requestRescan : (requestRescan machineId caller).Discreet (orgVeil σ) x :=
  discreet_inScope hs machineId (fun _ => rfl) (fun _ => rfl) (fun _ _ => rfl)
    fun _ _ _ => discreet_publish discreet_ok

theorem discreet_resolveDrift (I : Identification) (driftId : Uuid) (approved : Bool) :
    (resolveDrift I driftId approved caller).Discreet (orgVeil σ) x := by
  refine (looks_requireAdmin hs.caller).discreet (fun _ => rfl) ?_
  rintro ⟨id, _⟩ rfl
  by_cases hin : σ.drift driftId = true
  · have hget : (x.view.within σ).drifts.get driftId = x.view.drifts.get driftId := by
      change (x.view.drifts.get driftId).filter (fun _ => σ.drift driftId) = _
      rw [hin]
      cases x.view.drifts.get driftId <;> rfl
    refine discreet_select (v := orgVeil σ) hget ?_
    cases hdrift : x.view.drifts.get driftId with
    | none => exact discreet_error
    | some drift =>
      have hmachine : σ.machine drift.machineId = true := machine_of_drift hs.scope hdrift hin
      refine discreet_select (v := orgVeil σ) (get_within hmachine _) ?_
      cases x.view.machines.get drift.machineId with
      | none => exact discreet_error
      | some machine =>
        refine discreet_select (v := orgVeil σ) rfl ?_
        dsimp only
        split
        · exact discreet_error
        · split
          · exact discreet_error
          · cases machine.resolved I drift approved with
            | none => exact discreet_error
            | some cur =>
              refine discreet_answer ((blind_flushMachine hmachine).discreet ?_)
              refine (blind_flushDrift hin).discreet (discreet_publish ?_)
              exact Prog.Blind.discreet (blind_driftToOut hmachine) discreet_ok
  · -- the change of a machine of another organisation is refused
    obtain ⟨drift, machine, hdrift, hmachine, horg⟩ := exists_of_not_drift (hs.scope ▸ hin)
    intro _ hok
    dsimp only at hok
    rw [alone_select, hdrift] at hok
    dsimp only at hok
    rw [alone_select, hmachine] at hok
    dsimp only at hok
    rw [alone_select, if_pos horg] at hok
    cases hok

theorem discreet_approveAttempt (hsuper : isSuperAdmin user = false) (attemptId : Uuid)
    (note : Option String) : (approveAttempt c attemptId note caller).Discreet (orgVeil σ) x := by
  refine (looks_requireAdmin hs.caller).discreet (fun _ => rfl) ?_
  rintro ⟨id, _⟩ rfl
  refine (looks_getAttemptInScope hs.scope hsuper).discreet (fun _ => rfl) fun attempt hin => ?_
  dsimp only
  split
  · exact discreet_error
  · cases attempt.orgId with
    | none => exact discreet_error
    | some orgId =>
      refine discreet_answer (discreet_fresh (discreet_fresh ?_))
      refine discreet_insert (v := orgVeil σ) trivial ?_
      exact (blind_flushAttempt hin).discreet (discreet_publish discreet_ok)

theorem discreet_rejectAttempt (hsuper : isSuperAdmin user = false) (attemptId : Uuid)
    (note : Option String) : (rejectAttempt attemptId note caller).Discreet (orgVeil σ) x := by
  refine (looks_requireAdmin hs.caller).discreet (fun _ => rfl) ?_
  rintro ⟨id, _⟩ rfl
  refine (looks_getAttemptInScope hs.scope hsuper).discreet (fun _ => rfl) fun attempt hin => ?_
  dsimp only
  split
  · exact discreet_error
  · exact discreet_answer ((blind_flushAttempt hin).discreet (discreet_publish discreet_ok))

/-- The request to investigate does not ask for the organisation; here the machine is in scope. -/
theorem discreet_createRequest (body : DfirInvestigationRequestCreate)
    (hin : σ.machine body.machineId = true) :
    (createRequest c body caller).Discreet (orgVeil σ) x := by
  refine (looks_requireAdmin hs.caller).discreet (fun _ => rfl) ?_
  rintro ⟨id, _⟩ rfl
  refine discreet_select (v := orgVeil σ) (get_within hin _) ?_
  cases x.view.machines.get body.machineId with
  | none => exact discreet_error
  | some machine =>
    refine discreet_fresh (discreet_insert (v := orgVeil σ) hin (discreet_publish ?_))
    exact (blind_requestToOut hin).discreet discreet_ok

end Routes

/-! ## Isolation -/

/-- **The request keeps to the scope of the user.**  Without what is out of scope it is answered the same
and leaves the same, and it leaves what is out of scope as it was. -/
structure Isolated (c : PortalSettings) (s : AtRest Data) (user : User) (request : PortalRequest)
    (answers : ℕ → Env) : Prop where
  reads : serveAlone (portalRoute c) ⟨s.data.within (scopeOf s.data user), s.drawn⟩ request answers =
    ((serveAlone (portalRoute c) s request answers).1,
      ⟨(serveAlone (portalRoute c) s request answers).2.data.within (scopeOf s.data user),
        (serveAlone (portalRoute c) s request answers).2.drawn⟩)
  changes : (serveAlone (portalRoute c) s request answers).2.data.outside (scopeOf s.data user) =
    s.data.outside (scopeOf s.data user)

/-- The request is not to investigate a machine out of scope. -/
def PortalRequest.InvestigatesWithin (σ : Scope) : PortalRequest → Prop
  | .createDfirRequest body _ => σ.machine body.machineId = true
  | _ => True

variable {x : Alone Data DataWrite Env}

theorem discreet_answering {α : Type} {σ : Scope}
    {answer : α → PortalAnswer} {m : Handler (Except HttpError α)}
    (hm : m.Discreet (orgVeil σ) x) : (answering answer m).Discreet (orgVeil σ) x :=
  hm.bind (fun _ => rfl) fun _ _ => discreet_ok

theorem discreet_portalRoute {σ : Scope} {user : User}
    (hsuper : isSuperAdmin user = false) (c : PortalSettings) {request : PortalRequest}
    (hs : Starting σ user request.caller x) (hin : request.InvestigatesWithin σ) :
    (portalRoute c request).Discreet (orgVeil σ) x := by
  cases request with
  | getMachine machineId caller => exact discreet_answering (discreet_getMachine hs c machineId)
  | timeline machineId days caller =>
    exact discreet_answering (discreet_machineTimeline hs machineId days)
  | investigations machineId page limit statusFilter caller =>
    exact discreet_answering
      (discreet_listMachineInvestigations hs c machineId page limit statusFilter)
  | lifecycle machineId lifecycle note caller =>
    exact discreet_answering (discreet_updateLifecycle hs machineId lifecycle note)
  | approve machineId note caller =>
    exact discreet_answering (discreet_approveMachine hs machineId _ note)
  | reject machineId note caller =>
    exact discreet_answering (discreet_rejectMachine hs machineId note)
  | setTags machineId classification purpose caller =>
    exact discreet_answering (discreet_setMachineTags hs c machineId classification purpose)
  | bulkTags body caller => exact discreet_answering (discreet_setMachineTagsBulk hs body)
  | assignUser machineId body caller =>
    exact discreet_answering (discreet_assignUser hs c machineId body)
  | unassignUser machineId caller => exact discreet_answering (discreet_unassignUser hs machineId)
  | rescan machineId caller => exact discreet_answering (discreet_requestRescan hs machineId)
  | resolveDrift driftId approved caller =>
    exact discreet_answering (discreet_resolveDrift hs _ driftId approved)
  | approveAttempt attemptId note caller =>
    exact discreet_answering (discreet_approveAttempt hs c hsuper attemptId note)
  | rejectAttempt attemptId note caller =>
    exact discreet_answering (discreet_rejectAttempt hs hsuper attemptId note)
  | createDfirRequest body caller =>
    exact discreet_answering (discreet_createRequest hs c body hin)

theorem createRequest_ne_ok {user : User} {caller : Option Uuid}
    (hcaller : caller.bind x.view.users.get = some user) (c : PortalSettings)
    {body : DfirInvestigationRequestCreate} (hget : x.view.machines.get body.machineId = none)
    (answer : DfirInvestigationRequestOut) :
    ((createRequest c body caller).alone x).1 ≠ .ok answer := by
  intro hok
  rw [createRequest, alone_bind] at hok
  cases hadmin : ((requireAdmin caller).alone x).1 with
  | error e =>
    rw [hadmin] at hok
    cases hok
  | ok found =>
    have hlooks : (requireAdmin caller).Looks (orgVeil (scopeOf x.view user)) (fun r => r.2 = user) x :=
      looks_requireAdmin hcaller
    obtain ⟨-, hsame, -⟩ := hlooks found hadmin
    rw [hadmin, hsame] at hok
    dsimp only at hok
    rw [alone_select, hget] at hok
    cases hok

/-- **Users keep to their organisations.**  A request about machines that succeeds, of a user who is not a
super administrator, reads and changes only what is in scope, if and only if it is not the request to
investigate a machine of another organisation. -/
theorem isolated_iff (c : PortalSettings) (s : AtRest Data) (answers : ℕ → Env)
    {request : PortalRequest} {user : User} {answer : PortalAnswer}
    (hcaller : request.caller.bind s.data.users.get = some user)
    (hsuper : isSuperAdmin user = false)
    (hok : (serveAlone (portalRoute c) s request answers).1 = .ok answer) :
    Isolated c s user request answers ↔ request.InvestigatesWithin (scopeOf s.data user) := by
  constructor
  · intro h
    cases request with
    | createDfirRequest body caller =>
      by_contra hout
      have hnone : (s.data.within (scopeOf s.data user)).machines.get body.machineId = none := by
        change (s.data.machines.get body.machineId).filter (fun _ => _) = none
        rw [Bool.eq_false_iff.mpr hout]
        cases s.data.machines.get body.machineId <;> rfl
      have hsame := congrArg Prod.fst h.reads
      rw [hok] at hsame
      -- what succeeds without the machine would have found it
      change (((createRequest c body caller) >>= fun r => pure (r.map PortalAnswer.request)).alone
        ⟨s.data.within (scopeOf s.data user), [], s.drawn, answers⟩).1 = .ok answer at hsame
      rw [alone_bind] at hsame
      cases hresult : ((createRequest c body caller).alone
          ⟨s.data.within (scopeOf s.data user), [], s.drawn, answers⟩).1 with
      | error e =>
        rw [hresult] at hsame
        cases hsame
      | ok out =>
        have hviewed : caller.bind (⟨s.data.within (scopeOf s.data user), [], s.drawn, answers⟩ :
            Alone Data DataWrite Env).view.users.get = some user := hcaller
        exact createRequest_ne_ok hviewed c hnone out hresult
    | _ => trivial
  · intro hin
    have hs : Starting (scopeOf s.data user) user request.caller
        (⟨s.data, [], s.drawn, answers⟩ : Alone Data DataWrite Env) := ⟨hcaller, rfl⟩
    obtain ⟨halone, hcovered⟩ := Prog.Blind.alone
      (discreet_portalRoute hsuper c hs hin answer hok) (List.forall_mem_nil _)
    refine ⟨?_, hcovered⟩
    exact congrArg (fun r : Except HttpError PortalAnswer × Alone Data DataWrite Env =>
      (r.1, (⟨r.2.data, r.2.drawn⟩ : AtRest Data))) halone

/-! ## Two organisations -/

/-- Nothing is masked, and a number is its own token. -/
def examplePortal : PortalSettings where
  fleet := exampleFleet
  orgName := fun _ => none
  collation := String.length
  maskPhone := id
  encryptPhone := id
  tokenText := fun n => toString n
  requestDefinedAt := 0

/-- Two organisations side by side, an administrator of the first, and a machine of each. -/
def twoOrganisations : AtRest Data where
  data :=
    { adminData with
      organizations := [⟨0, none⟩, ⟨1, none⟩]
      machines := (Table.empty.insert 0 (exampleMachine "4C4C4544")).insert 1
        { exampleMachine "564D2D31" with orgId := 1 } }
  drawn := 2

/-- The administrator asks for an investigation of a machine. -/
def exampleInvestigation (machineId : Uuid) : PortalRequest :=
  .createDfirRequest ⟨machineId, "Windows.System.Pslist", none, "normal"⟩ (some 0)

theorem isolated_exampleInvestigation :
    Isolated examplePortal twoOrganisations exampleAdmin (exampleInvestigation 0)
      fun _ => exampleAnswer :=
  (isolated_iff examplePortal twoOrganisations (fun _ => exampleAnswer)
    (show (exampleInvestigation 0).caller.bind twoOrganisations.data.users.get = some exampleAdmin from rfl)
    rfl rfl).mpr (show (scopeOf twoOrganisations.data exampleAdmin).machine 0 = true by decide)

/-- **A machine of another organisation is investigated.** -/
theorem investigates_elsewhere : isSuperAdmin exampleAdmin = false ∧
      (exampleInvestigation 1).caller.bind twoOrganisations.data.users.get = some exampleAdmin ∧
      ((twoOrganisations.data.machines.get 1).any fun m =>
        decide (m.orgId ∉ visibleOrgs twoOrganisations.data exampleAdmin)) = true ∧
      (serveAlone (portalRoute examplePortal) twoOrganisations (exampleInvestigation 1)
        fun _ => exampleAnswer).1.toOption.isSome = true ∧
      ¬ Isolated examplePortal twoOrganisations exampleAdmin (exampleInvestigation 1)
        fun _ => exampleAnswer := by
  refine ⟨rfl, rfl, by decide, by decide, fun h => ?_⟩
  have hsame := congrArg (fun r => r.1.toOption.isSome) h.reads
  revert hsame
  decide

end AssetInventory.Fleet

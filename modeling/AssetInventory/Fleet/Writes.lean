import AssetInventory.Fleet.Routes

/-!
# What the routes write

For each part of a route what it may write, announce and return, whatever it reads: `only_...`.  The
kinds `A` and `B` of the writes and of the announcements are parameters.  Writes that concern neither
machines nor tokens are of the kind `A` throughout, and where no tags are written, those that concern no
tags suffice.
-/

namespace AssetInventory.Fleet

open PyJson PyTime Orm RowStore ReadCommitted Server

variable {A : DataWrite → Prop} {B : List Note → Prop} {C : Unit → Prop}

/-! ## Flushes and tags -/

theorem only_flushMachine {id : Uuid} {base cur : Machine} (h : A (.machine id base cur)) :
    (flushMachine id base cur).Only A B fun _ => True := by
  rw [flushMachine]
  split
  · exact only_pure trivial
  · exact only_update_one _ (fun _ => h) fun _ => only_pure trivial

theorem only_flushToken {id : Uuid} {base cur : EnrollToken} (h : A (.token id base cur)) :
    (flushToken id base cur).Only A B fun _ => True := by
  rw [flushToken]
  split
  · exact only_pure trivial
  · exact only_update_one _ (fun _ => h) fun _ => only_pure trivial

section Tags

theorem only_ensureClassification (hA : ∀ row, A (.newTag row)) (machineId : Uuid)
    (actor : Option Uuid) (key : String) :
    (ensureClassification machineId key actor).Only A B fun _ => True := by
  refine only_select _ fun tag => ?_
  cases tag with
  | none => exact only_pure trivial
  | some tag =>
    refine only_select _ fun has => ?_
    cases has with
    | true => exact only_pure trivial
    | false => exact only_insert (hA _) (only_pure trivial)

variable (hA : ∀ w : DataWrite, w.Aside → A w) (machineId : Uuid) (actor : Option Uuid)

include hA

theorem only_insertTags (tags : List Tag) :
    (insertTags machineId actor tags).Only A B fun _ => True := by
  induction tags with
  | nil => exact only_pure trivial
  | cons tag tags ih => exact only_insert (hA _ trivial) ih

theorem only_applyTokenTags (token : EnrollToken) :
    (applyTokenTags machineId token).Only A B fun _ => True := by
  refine (only_ensureClassification (fun _ => hA _ trivial) machineId none _).bind fun _ _ => ?_
  split
  · exact only_pure trivial
  · refine only_select _ fun valid => only_insert (hA _ trivial) ?_
    exact only_insertTags hA machineId none valid

end Tags

/-! ## Enrollment -/

theorem only_insertMachine (hA : ∀ w : DataWrite, w.Aside → A w)
    (hnew : ∀ id row, row.status = MachineStatus.pending → A (.newMachine id row)) (tokenId : Uuid)
    (token : EnrollToken) (hostname : Option String) (fingerprint : Fingerprint) (weighted : String)
    (time : Time) :
    (insertMachine tokenId token hostname fingerprint weighted time).Only A B fun r =>
      ∀ e, r = .ok e →
        e.tokenId = tokenId ∧ e.token = token ∧ e.machine = e.base ∧ e.reenrolled = false := by
  refine only_select _ fun user => ?_
  cases user with
  | none => exact only_pure fun e h => by cases h
  | some user =>
    refine only_fresh fun id => only_insert (hnew _ _ rfl) ?_
    refine (only_applyTokenTags hA id token).bind fun _ _ => only_pure ?_
    rintro e ⟨⟩
    exact ⟨rfl, rfl, rfl, rfl⟩

section Enroll

variable (I : Identification) (hA : ∀ w : DataWrite, w.Apart → A w)

theorem only_findMachine (orgId : Uuid) (weighted : String) (fingerprint : Fingerprint) :
    (findMachine I orgId weighted fingerprint).Only A B fun _ => True := by
  refine only_select _ fun existing => ?_
  match existing with
  | none => exact only_pure trivial
  | some (some x) => exact only_pure trivial
  | some none => exact only_answer _ fun _ => only_select _ fun _ => only_pure trivial

include hA

theorem only_recordEnrollAttempt (tokenStr : String) (tokenStatus : Refusal)
    (tokenRow : Option (Uuid × EnrollToken)) (hostname : Option String) (fingerprint : Fingerprint)
    (ip : Option String) :
    (recordEnrollAttempt I tokenStr tokenStatus tokenRow hostname fingerprint ip).Only A B
      fun _ => True := by
  refine only_answer _ fun time => ?_
  cases computeWeightedId I fingerprint with
  | none => exact only_pure trivial
  | some weighted =>
    refine only_select _ fun matched => ?_
    cases matched with
    | none => exact only_pure trivial
    | some matched =>
      refine only_select _ fun recent => ?_
      match recent with
      | none => exact only_pure trivial
      | some (some (id, row)) =>
        exact only_update_one _ (fun _ => hA _ trivial) fun _ => only_pure trivial
      | some none =>
        exact only_fresh fun id => only_insert (hA _ trivial) (only_pure trivial)

theorem only_refuse {α : Type} (hB : B []) (tokenStr : String) (tokenStatus : Refusal)
    (tokenRow : Option (Uuid × EnrollToken)) (hostname : Option String) (fingerprint : Fingerprint)
    (ip : Option String) (detail : String) :
    (refuse I tokenStr tokenStatus tokenRow hostname fingerprint ip detail :
      Handler (Except HttpError α)).Only A B fun r => ∀ a, r ≠ .ok a := by
  refine (only_recordEnrollAttempt I hA _ _ _ _ _ _).bind fun recorded _ => ?_
  cases recorded with
  | error e => exact only_pure fun a h => by cases h
  | ok _ => exact only_publish hB (only_pure fun a h => by cases h)

/-- A machine that was there is enrolled again, with a flush now or with one to come. -/
theorem only_updateMachine (id : Uuid) (row : Machine) (tokenId : Uuid) (token : EnrollToken)
    (hostname : Option String) (fingerprint : Fingerprint) (weighted : String) (time : Time)
    (hupdate : A (.machine id row (row.enrolledAgain hostname time))) :
    (updateMachine I id row tokenId token hostname fingerprint weighted time).Only A B fun r =>
      ∀ e, r = .ok e → e.tokenId = tokenId ∧ e.token = token ∧ e.machineId = id ∧
        e.reenrolled = decide (row.status = .decommissioned) ∧
        e.machine = row.enrolledAgain hostname time ∧ (e.base = row ∨ e.base = e.machine) := by
  rw [updateMachine]
  split
  · refine only_pure ?_
    rintro e ⟨⟩
    exact ⟨rfl, rfl, rfl, rfl, rfl, Or.inl rfl⟩
  · refine (only_flushMachine hupdate).bind fun _ _ => only_select _ fun already => ?_
    match already with
    | none => exact only_pure fun e h => by cases h
    | some (some _) =>
      refine only_pure ?_
      rintro e ⟨⟩
      exact ⟨rfl, rfl, rfl, rfl, rfl, Or.inr rfl⟩
    | some none =>
      dsimp only
      cases driftReason I fingerprint row.fingerprint with
      | none => exact only_pure fun e h => by cases h
      | some reason =>
        refine only_fresh fun driftId => only_insert (hA _ trivial) (only_pure ?_)
        rintro e ⟨⟩
        exact ⟨rfl, rfl, rfl, rfl, rfl, Or.inr rfl⟩

end Enroll

/-! ## Callers -/

theorem only_getCurrentUser (caller : Option Uuid) :
    (getCurrentUser caller).Only A B fun _ => True := by
  cases caller with
  | none => exact only_pure trivial
  | some id =>
    refine only_select _ fun user => ?_
    cases user with
    | none => exact only_pure trivial
    | some user =>
      dsimp only
      split
      · exact only_pure trivial
      · exact only_pure trivial

theorem only_requireAdmin (caller : Option Uuid) :
    (requireAdmin caller).Only A B fun _ => True := by
  refine (only_getCurrentUser caller).bind fun user _ => ?_
  cases user with
  | error e => exact only_pure trivial
  | ok x =>
    dsimp only
    split
    · exact only_pure trivial
    · exact only_pure trivial

theorem only_getMachineInScope (machineId : Uuid) (user : User) (refusal : String) :
    (getMachineInScope machineId user refusal).Only A B fun _ => True := by
  refine only_select _ fun visible => only_select _ fun machine => ?_
  cases machine with
  | none => exact only_pure trivial
  | some machine =>
    dsimp only
    split
    · exact only_pure trivial
    · exact only_pure trivial

/-! ## Heartbeats and the sweep -/

theorem only_heartbeat (hA : ∀ w : DataWrite, w.Apart → A w) (hB : B [])
    (h : ∀ id m time, A (.machine id m (m.alive time))) (machineCn : Option Uuid) :
    (heartbeat machineCn).Only A B fun _ => True := by
  cases machineCn with
  | none => exact only_pure trivial
  | some id =>
    refine only_select _ fun machine => ?_
    cases machine with
    | none => exact only_pure trivial
    | some machine =>
      refine only_answer _ fun time => (only_flushMachine (h id machine time)).bind fun _ _ => ?_
      exact only_insert (hA _ trivial) (only_publish hB (only_pure trivial))

theorem only_sweepRows (h : ∀ id m, A (.machine id m { m with status := .offline }))
    (rows : List (Uuid × Machine)) : (sweepRows rows).Only A B fun _ => True := by
  induction rows with
  | nil => exact only_pure trivial
  | cons row rows ih => exact (only_flushMachine (h row.1 row.2)).bind fun _ _ => ih

theorem only_sweepOffline (hB : B []) (h : ∀ id m, A (.machine id m { m with status := .offline }))
    (threshold : ℤ) : (sweepOffline threshold).Only A B fun _ => True := by
  refine only_answer _ fun time => only_answer _ fun rank => only_select _ fun rows => ?_
  refine (only_sweepRows h rows).bind fun _ _ => ?_
  split
  · exact only_pure trivial
  · exact only_publish hB (only_pure trivial)

/-! ## Decisions -/

theorem only_approveMachine (threshold : ℤ) (machineId : Uuid) (note : Option String)
    (caller : Option Uuid) (hB : B [.approved machineId])
    (h : ∀ m time, m.status = MachineStatus.pending →
      A (.machine machineId m (m.approvedAt time threshold note))) :
    (approveMachine threshold machineId note caller).Only A B fun _ => True := by
  refine (only_requireAdmin caller).bind fun admin _ => ?_
  cases admin with
  | error e => exact only_pure trivial
  | ok x =>
    refine (only_getMachineInScope machineId x.2 _).bind fun machine _ => ?_
    cases machine with
    | error e => exact only_pure trivial
    | ok machine =>
      dsimp only
      split_ifs with hpending
      · exact only_pure trivial
      · refine only_answer _ fun time => ?_
        refine (only_flushMachine (h machine time (not_not.mp hpending))).bind fun _ _ => ?_
        exact only_publish hB (only_pure trivial)

theorem only_rejectMachine (machineId : Uuid) (note : Option String) (caller : Option Uuid)
    (hB : B [.declined machineId]) (h : ∀ m, A (.machine machineId m (m.rejectedWith note))) :
    (rejectMachine machineId note caller).Only A B fun _ => True := by
  refine (only_requireAdmin caller).bind fun admin _ => ?_
  cases admin with
  | error e => exact only_pure trivial
  | ok x =>
    refine (only_getMachineInScope machineId x.2 _).bind fun machine _ => ?_
    cases machine with
    | error e => exact only_pure trivial
    | ok machine =>
      exact (only_flushMachine (h machine)).bind fun _ _ => only_publish hB (only_pure trivial)

theorem only_updateLifecycle (machineId : Uuid) (lifecycle : Option AssetLifecycle)
    (note : Option String) (caller : Option Uuid)
    (hB : B (if lifecycle = some .decommissioned then [.declined machineId] else []))
    (h : ∀ m phase, A (.machine machineId m (m.inPhase phase note))) :
    (updateLifecycle machineId lifecycle note caller).Only A B fun _ => True := by
  refine (only_requireAdmin caller).bind fun admin _ => ?_
  cases admin with
  | error e => exact only_pure trivial
  | ok x =>
    cases lifecycle with
    | none => exact only_pure trivial
    | some phase =>
      refine (only_getMachineInScope machineId x.2 _).bind fun machine _ => ?_
      cases machine with
      | error e => exact only_pure trivial
      | ok machine =>
        refine (only_flushMachine (h machine phase)).bind fun _ _ => ?_
        refine only_publish ?_ (only_pure trivial)
        simpa only [Option.some.injEq] using hB

/-! ## Changes of fingerprints -/

theorem Machine.resolved_status {I : Identification} {m cur : Machine} {drift : FingerprintDrift}
    {approved : Bool} (h : m.resolved I drift approved = some cur) : cur.status = m.status := by
  rw [Machine.resolved] at h
  split at h
  · obtain ⟨id, -, rfl⟩ := Option.map_eq_some_iff.mp h
    rfl
  · rw [Option.some.inj h]

theorem only_resolveDrift (I : Identification) (hA : ∀ w : DataWrite, w.Apart → A w) (hB : B [])
    (h : ∀ id m drift approved cur, m.resolved I drift approved = some cur → A (.machine id m cur))
    (driftId : Uuid) (approved : Bool) (caller : Option Uuid) :
    (resolveDrift I driftId approved caller).Only A B fun _ => True := by
  refine (only_requireAdmin caller).bind fun admin _ => ?_
  cases admin with
  | error e => exact only_pure trivial
  | ok x =>
    refine only_select _ fun drift => ?_
    cases drift with
    | none => exact only_pure trivial
    | some drift =>
      refine only_select _ fun machine => ?_
      cases machine with
      | none => exact only_pure trivial
      | some machine =>
        refine only_select _ fun visible => ?_
        dsimp only
        split
        · exact only_pure trivial
        · split
          · exact only_pure trivial
          · cases hcur : machine.resolved I drift approved with
            | none => exact only_pure trivial
            | some cur =>
              refine only_answer _ fun time => ?_
              refine (only_flushMachine (h _ _ _ _ _ hcur)).bind fun _ _ => ?_
              exact only_update_one _ (fun _ => hA _ trivial) fun _ =>
                only_publish hB (only_select _ fun _ => only_pure trivial)

/-! ## Imports -/

theorem Machine.importedFrom_eq {m cur : Machine} {payload : List (String × Json)}
    (h : m.importedFrom payload = some cur) :
    ∃ isVm publicIp, cur = { m with isVm := isVm, publicIp := publicIp } := by
  rw [Machine.importedFrom] at h
  obtain ⟨publicIp, -, h⟩ := Option.bind_eq_some_iff.mp h
  exact ⟨_, _, (Option.some.inj h).symm⟩

theorem Machine.importedFrom_status {m cur : Machine} {payload : List (String × Json)}
    (h : m.importedFrom payload = some cur) : cur.status = m.status := by
  obtain ⟨_, _, rfl⟩ := Machine.importedFrom_eq h
  rfl

def NoBadRequest {α : Type} (r : Except HttpError α) : Prop := ∀ e, r = .error e → e.statusCode ≠ 400

theorem noBadRequest_ok {α : Type} (a : α) : NoBadRequest (.ok a : Except HttpError α) :=
  fun e h => by cases h

theorem noBadRequest_serverError {α : Type} :
    NoBadRequest (.error ⟨500, "Internal Server Error"⟩ : Except HttpError α) := by
  rintro e ⟨⟩
  decide

section Import

variable (I : Identification) (J : Importing)

theorem only_findImported (orgId : Uuid) (machineUuid : String) (fingerprint : Fingerprint)
    (weighted : String) :
    (findImported I orgId machineUuid fingerprint weighted).Only A B fun _ => True := by
  refine only_select _ fun named => ?_
  match named with
  | none => exact only_pure trivial
  | some (some x) => exact only_pure trivial
  | some none =>
    dsimp only
    split
    · exact only_pure trivial
    · exact only_findMachine I orgId weighted fingerprint

theorem only_insertImported (hA : ∀ w : DataWrite, w.Aside → A w)
    (hnew : ∀ id row, row.status = MachineStatus.offline → A (.newMachine id row)) (orgId : Uuid)
    (weighted : String) (fingerprint : Fingerprint) (hostname : Option String)
    (time collectedAt : Time) :
    (insertImported orgId weighted fingerprint hostname time collectedAt).Only A B
      fun _ => True := by
  refine only_fresh fun id => only_insert (hnew _ _ rfl) ?_
  exact (only_ensureClassification (fun _ => hA _ trivial) id none _).bind fun _ _ => only_pure trivial

section Configuration

theorem only_insertSoftware (hA : ∀ row, A (.newSoftware row)) (machineId : Uuid) (collectedAt : Time)
    (entries : List (List (String × Json))) :
    (insertSoftware machineId collectedAt entries).Only A B fun _ => True := by
  induction entries with
  | nil => exact only_pure trivial
  | cons entry entries ih => exact only_insert (hA _) ih

variable (hA : ∀ w : DataWrite, w.Apart → A w)

include hA

theorem only_upsertCurrentAndSoftware (N : Normalizers) (machineId : Uuid) (r : Reported)
    (isVm : Option Bool) (configHash : Option String) (collectedAt : Option Time) :
    (upsertCurrentAndSoftware N machineId r isVm configHash collectedAt).Only A B
      fun _ => True := by
  have htime : (timeOr collectedAt).Only A B fun _ => True := by
    cases collectedAt with
    | none => exact fun _ => trivial
    | some t => exact only_pure trivial
  refine htime.bind fun ts _ => only_update_one _ (fun _ => hA _ trivial) fun _ => ?_
  exact only_insert (hA _ trivial) (only_insertSoftware (fun _ => hA _ trivial) machineId ts _)

theorem only_importSpec (machineId : Uuid) (payload : List (String × Json)) (collectedAt : Time) :
    (importSpec J machineId payload collectedAt).Only A B NoBadRequest := by
  unfold importSpec
  dsimp only
  split
  · exact only_pure (noBadRequest_ok _)
  · split
    · refine only_insert (hA _ trivial) ?_
      exact (only_upsertCurrentAndSoftware hA _ machineId _ _ _ _).bind fun _ _ =>
        only_pure (noBadRequest_ok _)
    · exact only_pure noBadRequest_serverError

theorem only_finishImport (hB : B []) (id : Uuid) (base machine : Machine) (isNew : Bool)
    (payload : List (String × Json)) (collectedAt : Time)
    (h : ∀ cur, machine.importedFrom payload = some cur → A (.machine id base cur)) :
    (finishImport J id base machine isNew payload collectedAt).Only A B NoBadRequest := by
  rw [finishImport]
  cases hcur : machine.importedFrom payload with
  | none => exact only_pure noBadRequest_serverError
  | some cur =>
    refine (only_flushMachine (h cur hcur)).bind fun _ _ => ?_
    refine (only_importSpec J hA id payload collectedAt).bind fun stored hstored => ?_
    cases stored with
    | error e => exact only_pure fun e' he' => hstored e' (by cases he'; rfl)
    | ok _ => exact only_publish hB (only_pure (noBadRequest_ok _))

end Configuration

theorem only_importPayload (hA : ∀ w : DataWrite, w.Aside → A w) (hB : B [])
    (hnew : ∀ id row, row.status = MachineStatus.offline → A (.newMachine id row))
    (h : ∀ id base cur, cur.status = base.status → A (.machine id base cur)) (admin : User)
    (payload : List (String × Json)) (machineUuid : String) (fingerprint : Fingerprint)
    (hostname : Option String) :
    (importPayload I J admin payload machineUuid fingerprint hostname).Only A B NoBadRequest := by
  refine only_select _ fun visible => ?_
  dsimp only
  cases computeWeightedId I fingerprint with
  | none => exact only_pure noBadRequest_serverError
  | some weighted =>
    refine (only_findImported I _ _ _ _).bind fun found _ => ?_
    cases found with
    | none => exact only_pure noBadRequest_serverError
    | some found =>
      refine only_answer _ fun time => ?_
      cases found with
      | none =>
        refine (only_insertImported hA hnew _ _ _ _ _ _).bind fun inserted _ => ?_
        exact only_finishImport J (forall_apart hA) hB _ _ _ _ _ _ fun cur hcur =>
          h _ _ _ (Machine.importedFrom_status hcur)
      | some found =>
        refine (only_flushMachine (h found.1 found.2 _ (by rfl))).bind fun _ _ => ?_
        refine (only_ensureClassification (fun _ => hA _ trivial) _ none _).bind fun _ _ => ?_
        exact only_finishImport J (forall_apart hA) hB _ _ _ _ _ _ fun cur hcur =>
          h _ _ _ (Machine.importedFrom_status hcur)

theorem only_importOffline (hA : ∀ w : DataWrite, w.Aside → A w) (hB : B [])
    (hnew : ∀ id row, row.status = MachineStatus.offline → A (.newMachine id row))
    (h : ∀ id base cur, cur.status = base.status → A (.machine id base cur))
    (body : OfflineImportRequest) (caller : Option Uuid) :
    (importOffline I J body caller).Only A B fun _ => True := by
  refine (only_requireAdmin caller).bind fun admin _ => ?_
  cases admin with
  | error e => exact only_pure trivial
  | ok x =>
    dsimp -zeta only
    split
    · exact only_pure trivial
    · extract_lets machineUuid
      split
      · split
        · exact only_pure trivial
        · exact (only_importPayload I J hA hB hnew h _ _ _ _ _).mono (fun _ => id) (fun _ => id)
            fun _ _ => trivial
      · exact only_pure trivial

end Import

end AssetInventory.Fleet

import AssetInventory.Fleet.Inventory

/-!
# Heartbeats, the offline sweep, decisions and imports

* `heartbeat`: a machine reports that it is alive; `sweepOffline`: machines that have not for long go
  offline.
* `approveMachine`, `rejectMachine`, `updateLifecycle`: an administrator decides about a machine.
* `importOffline`: an administrator imports the signed file of a machine without a network.
* `resolveDrift`: an administrator decides about a change of a fingerprint.
* `FleetRequest`, `fleetRoute`: the requests, and the program of each.

An import begins here with the payload that the upload was decrypted and merged to.
-/

namespace AssetInventory.Fleet

open PyJson PyTime Orm RowStore ReadCommitted Server

/-! ## Callers -/

/-- `get_current_user`, for the id that the access token says. -/
def getCurrentUser (caller : Option Uuid) : Handler (Except HttpError (Uuid × User)) := do
  match caller with
  | none => httpError 401 "Token không hợp lệ hoặc hết hạn"
  | some id =>
    let user ← .select fun data => (data.users.get id).filter User.isActive
    match user with
    | none => httpError 401 "User không tồn tại hoặc bị khóa"
    | some user =>
      if user.mustChangePassword then httpError 403 "PASSWORD_CHANGE_REQUIRED"
      else return .ok (id, user)

def adminRoles : List UserRole := [.superAdmin, .orgAdmin, .adminGlobal, .adminOrg]

/-- The caller is an administrator whom `require_admin` lets pass. -/
def adminOf (data : Data) (caller : Option Uuid) : Option User :=
  (caller.bind data.users.get).filter fun user =>
    user.isActive && !user.mustChangePassword && decide (user.role ∈ adminRoles)

def requireAdmin (caller : Option Uuid) : Handler (Except HttpError (Uuid × User)) := do
  let user ← getCurrentUser caller
  match user with
  | .error e => return .error e
  | .ok (id, user) =>
    if user.role ∈ adminRoles then return .ok (id, user) else httpError 403 "Không có quyền"

/-- `visible_org_ids`, with enough depth. -/
def visibleOrgs (data : Data) (user : User) : Finset Uuid :=
  (visibleOrgIds (data.organizations.length + 2) data.organizations user).getD ∅

/-- `_get_machine_in_scope`; the text of the refusal is that of the route. -/
def getMachineInScope (machineId : Uuid) (user : User) (refusal : String) :
    Handler (Except HttpError Machine) := do
  let visible ← .select fun data => visibleOrgs data user
  let machine ← .select fun data => data.machines.get machineId
  match machine with
  | none => httpError 404 "Máy không tồn tại"
  | some machine =>
    if machine.orgId ∈ visible then return .ok machine else httpError 403 refusal

/-- The refusal of the routes that change a machine. -/
def noPermission : String := "Không có quyền thao tác máy này"

/-! ## Heartbeats -/

/-- The columns that a heartbeat changes. -/
def Machine.alive (m : Machine) (time : Time) : Machine :=
  { m with
    lastSeenAt := some time
    status := if m.status = .decommissioned then m.status else .online }

/-- `heartbeat`, for the machine that the client certificate names. -/
def heartbeat (machineCn : Option Uuid) : Handler (Except HttpError Time) := do
  match machineCn with
  | none => httpError 401 "CN không hợp lệ"
  | some id =>
    let machine ← .select fun data => data.machines.get id
    match machine with
    | none => httpError 401 "Máy không tồn tại"
    | some machine =>
      let time ← now
      flushMachine id machine (machine.alive time)
      .insert (.newHeartbeat ⟨id, time⟩)
      .publish []
      return .ok time

/-- The machines that have been quiet for long. -/
def quietMachines (data : Data) (cutoff : Time) : List (Uuid × Machine) :=
  data.machines.rowsWhere fun m =>
    decide (m.status = .online) && m.lastSeenAt.all fun t => decide (t < cutoff)

/-- The loop of `_sweep_offline`. -/
def sweepRows : List (Uuid × Machine) → Handler Unit
  | [] => return ()
  | (id, m) :: rows => do
    flushMachine id m { m with status := .offline }
    sweepRows rows

def sweepOffline (threshold : ℤ) : Handler Unit := do
  let time ← now
  let rank ← .answer Env.rank
  let rows ← .select fun data => inOrder rank (quietMachines data (time - threshold))
  sweepRows rows
  if rows = [] then return () else .publish []

/-! ## Decisions -/

/-- The machine as approved: online if it has been seen of late. -/
def Machine.approvedAt (m : Machine) (time : Time) (threshold : ℤ) (note : Option String) :
    Machine :=
  { m with
    status := if m.lastSeenAt.any fun t => decide (time - threshold ≤ t) then .online else .offline
    lifecycle := .inUse
    note := orText note m.note }

def approveMachine (threshold : ℤ) (machineId : Uuid) (note : Option String) (caller : Option Uuid) :
    Handler (Except HttpError MachineStatus) := do
  let admin ← requireAdmin caller
  match admin with
  | .error e => return .error e
  | .ok (_, admin) =>
    let machine ← getMachineInScope machineId admin noPermission
    match machine with
    | .error e => return .error e
    | .ok machine =>
      if machine.status ≠ .pending then httpError 400 "Máy không ở trạng thái chờ duyệt"
      else
        let time ← now
        let cur := machine.approvedAt time threshold note
        flushMachine machineId machine cur
        .publish [.approved machineId]
        return .ok cur.status

def Machine.rejectedWith (m : Machine) (note : Option String) : Machine :=
  { m with
    status := .decommissioned
    lifecycle := .decommissioned
    note := some ("Từ chối duyệt: " ++ (orText note none).getD "không rõ lý do" ++
      ((orText m.note none).map fun old => "\n" ++ old).getD "") }

def rejectMachine (machineId : Uuid) (note : Option String) (caller : Option Uuid) :
    Handler (Except HttpError MachineStatus) := do
  let admin ← requireAdmin caller
  match admin with
  | .error e => return .error e
  | .ok (_, admin) =>
    let machine ← getMachineInScope machineId admin noPermission
    match machine with
    | .error e => return .error e
    | .ok machine =>
      let cur := machine.rejectedWith note
      flushMachine machineId machine cur
      .publish [.declined machineId]
      return .ok cur.status

/-- The machine in another phase of its life. -/
def Machine.inPhase (m : Machine) (lifecycle : AssetLifecycle) (note : Option String) : Machine :=
  { m with
    lifecycle := lifecycle
    note := orText note m.note
    status := if lifecycle = .decommissioned then .decommissioned else m.status }

/-- `update_lifecycle`; `none` is a text that names no phase. -/
def updateLifecycle (machineId : Uuid) (lifecycle : Option AssetLifecycle) (note : Option String)
    (caller : Option Uuid) : Handler (Except HttpError (AssetLifecycle × MachineStatus)) := do
  let admin ← requireAdmin caller
  match admin with
  | .error e => return .error e
  | .ok (_, admin) =>
    match lifecycle with
    | none => httpError 422 "Vòng đời không hợp lệ"
    | some lifecycle =>
      let machine ← getMachineInScope machineId admin noPermission
      match machine with
      | .error e => return .error e
      | .ok machine =>
        let cur := machine.inPhase lifecycle note
        flushMachine machineId machine cur
        .publish (if lifecycle = .decommissioned then [.declined machineId] else [])
        return .ok (cur.lifecycle, cur.status)

/-! ## Changes of fingerprints -/

/-- A flush of a change of a fingerprint. -/
def flushDrift (id : Uuid) (base cur : FingerprintDrift) : Handler Unit := do
  let _ ← .update (.drift id) fun _ => [.drift id base cur]
  return ()

/-- The machine after a decision about a change of its fingerprint; `none` is an exception. -/
def Machine.resolved (I : Identification) (m : Machine) (drift : FingerprintDrift) (approved : Bool) :
    Option Machine :=
  if approved then
    (computeWeightedId I drift.newFingerprint).map fun id =>
      { m with fingerprint := drift.newFingerprint, machineUuid := id }
  else some m

structure FingerprintDriftOut where
  drift : FingerprintDrift
  hostname : Option String

/-- `_to_out`. -/
def driftToOut (drift : FingerprintDrift) : Handler FingerprintDriftOut := do
  let machine ← .select fun data => data.machines.get drift.machineId
  return ⟨drift, machine.bind Machine.hostname⟩

/-- `_resolve`, the body of `approve_drift` and `reject_drift`. -/
def resolveDrift (I : Identification) (driftId : Uuid) (approved : Bool) (caller : Option Uuid) :
    Handler (Except HttpError FingerprintDriftOut) := do
  let admin ← requireAdmin caller
  match admin with
  | .error e => return .error e
  | .ok (adminId, admin) =>
    let drift ← .select fun data => data.drifts.get driftId
    match drift with
    | none => httpError 404 "Drift không tồn tại"
    | some drift =>
      let machine ← .select fun data => data.machines.get drift.machineId
      match machine with
      | none => httpError 404 "Máy không tồn tại"
      | some machine =>
        let visible ← .select fun data => visibleOrgs data admin
        if machine.orgId ∉ visible then httpError 403 "Không có quyền xử lý drift này"
        else if drift.status ≠ .pending then httpError 400 "Drift đã được xử lý"
        else
          match machine.resolved I drift approved with
          | none => serverError
          | some cur =>
            let time ← now
            let resolved :=
              { drift with
                status := if approved then .approved else .rejected
                resolvedAt := some time
                resolvedBy := some adminId }
            flushMachine drift.machineId machine cur
            flushDrift driftId drift resolved
            .publish []
            let out ← driftToOut resolved
            return .ok out

/-! ## Imports -/

/-- What an import needs beside the database. -/
structure Importing where
  /-- The text of values that are no texts. -/
  reprs : Reprs
  verifySignature : List (String × Json) → String → String → Bool
  /-- `uuid.UUID(text)`. -/
  uuidOf : String → Option Uuid
  /-- `datetime.fromisoformat(text)`. -/
  timeOf : String → Option Time
  /-- The columns that the entries of a specification make; `none` is an error of the database. -/
  columnsOf : List (String × Json) → Option Reported
  normalize : Normalizers

structure OfflineImportRequest where
  payload : List (String × Json)
  signatureB64 : String
  publicKeyPem : String

structure OfflineImportResponse where
  machineId : Uuid
  isNew : Bool
  collectedAt : Time
  assignedUserId : Option Uuid
  orgId : Uuid

/-- `payload.get("fingerprint") or {}`; `none` is an object without `get`. -/
def payloadFingerprint (payload : List (String × Json)) : Option Fingerprint :=
  let value := getD payload "fingerprint" .null
  if value.truthy then value.entries? else some []

/-- A value for a column of text; `none` is an error of the database. -/
def columnText : Json → Option (Option String)
  | .null => some none
  | .str s => some (some s)
  | _ => none

/-- A value for a column of truth values; `none` is an error of the database layer. -/
def columnBool : Json → Option (Option Bool)
  | .null => some none
  | .bool b => some (some b)
  | .num q => if q = 0 then some (some false) else if q = 1 then some (some true) else none
  | _ => none

/-- The keys of `_spec_from_payload`. -/
def specKeys : List String :=
  ["os_name", "os_version", "os_build", "os_arch", "os_installed_at", "activation_status", "cpu",
    "ram_gb", "disks", "gpu", "network", "logged_user", "security", "config_hash", "mainboard",
    "bios", "installed_software", "public_ip"]

def specFromPayload (spec : List (String × Json)) : List (String × Json) :=
  specKeys.filterMap fun key =>
    ((lookup key spec).filter fun value => decide (value ≠ .null)).map fun value => (key, value)

/-- The entries with the configuration: those under `spec`, or those of the payload itself. -/
def innerSpec (payload : List (String × Json)) : List (String × Json) :=
  ((lookup "spec" payload).bind Json.entries?).getD payload

section Import

variable (I : Identification) (J : Importing)

/-- The machine of a payload: by the id that it names, by the id of its fingerprint, or by a similar
fingerprint.  The outer `none` is an exception. -/
def findImported (orgId : Uuid) (machineUuid : String) (fingerprint : Fingerprint)
    (weighted : String) : Handler (Option (Option (Uuid × Machine))) := do
  let named ← .select fun data =>
    if machineUuid = "" then some none else exactMatch data orgId machineUuid
  match named with
  | none => return none
  | some (some x) => return some (some x)
  | some none =>
    if fingerprint = [] then return some none
    else findMachine I orgId weighted fingerprint

/-- The machine with what the payload says of it beside its configuration; `none` is an error of the
database. -/
def Machine.importedFrom (m : Machine) (payload : List (String × Json)) : Option Machine := do
  let spec := innerSpec payload
  let publicIp ← (lookup "public_ip" (specFromPayload spec)).elim (some m.publicIp) columnText
  let isVm := ((lookup "is_vm" spec).filter fun v => decide (v ≠ .null)).map Json.truthy
  return { m with isVm := isVm.or m.isVm, publicIp := publicIp }

/-- The rows of the configuration. -/
def importSpec (machineId : Uuid) (payload : List (String × Json)) (collectedAt : Time) :
    Handler (Except HttpError Unit) := do
  let spec := specFromPayload (innerSpec payload)
  if spec = [] then return .ok ()
  else
    match J.columnsOf spec, columnText (getD spec "config_hash" .null),
      columnBool (getD (innerSpec payload) "is_vm" .null) with
    | some reported, some configHash, some isVm =>
      .insert (.newSpec ⟨machineId, reported, J.normalize.osOf reported, configHash, collectedAt⟩)
      upsertCurrentAndSoftware J.normalize machineId reported isVm configHash (some collectedAt)
      return .ok ()
    | _, _, _ => serverError

/-- The machine that an import creates, with its tag. -/
def insertImported (orgId : Uuid) (weighted : String) (fingerprint : Fingerprint)
    (hostname : Option String) (time collectedAt : Time) : Handler (Uuid × Machine) := do
  let id ← .fresh
  let machine : Machine :=
    { orgId := orgId
      machineUuid := weighted
      hostname := hostname
      fingerprint := fingerprint
      status := .offline
      lifecycle := .new
      isVm := none
      enrolledAt := time
      lastSeenAt := some collectedAt
      assignedUserId := none
      note := none
      publicIp := none }
  .insert (.newMachine id machine)
  ensureClassification id "bmnn" none
  return (id, machine)

/-- The second half of `import_offline`: the machine is there. -/
def finishImport (id : Uuid) (base machine : Machine) (isNew : Bool) (payload : List (String × Json))
    (collectedAt : Time) : Handler (Except HttpError OfflineImportResponse) := do
  match machine.importedFrom payload with
  | none => serverError
  | some cur =>
    flushMachine id base cur
    let stored ← importSpec J id payload collectedAt
    match stored with
    | .error e => return .error e
    | .ok () =>
      .publish []
      return .ok ⟨id, isNew, collectedAt, cur.assignedUserId, cur.orgId⟩

/-- The organisation of an import: the one that the payload names, if the administrator may see it, or
the administrator's own. -/
def importOrg (data : Data) (admin : User) (payload : List (String × Json)) : Uuid :=
  let named := getD payload "org_id" .null
  let orgUuid := if named.truthy then J.uuidOf (named.pyStr J.reprs) else none
  (orgUuid.filter fun id => decide (id ∈ visibleOrgs data admin)).getD admin.orgId

/-- `import_offline`, from the verified payload on. -/
def importPayload (admin : User) (payload : List (String × Json)) (machineUuid : String)
    (fingerprint : Fingerprint) (hostname : Option String) :
    Handler (Except HttpError OfflineImportResponse) := do
  let orgId ← .select fun data => importOrg J data admin payload
  match computeWeightedId I fingerprint with
  | none => serverError
  | some weighted =>
    let found ← findImported I orgId machineUuid fingerprint weighted
    match found with
    | none => serverError
    | some found =>
      let time ← now
      let exported := getD payload "exported_at" .null
      let collectedAt :=
        if exported.truthy then (J.timeOf (exported.pyStr J.reprs)).getD time else time
      match found with
      | none =>
        let (id, machine) ← insertImported orgId weighted fingerprint hostname time collectedAt
        finishImport J id machine machine true payload collectedAt
      | some (id, row) =>
        let machine := { row with
          lastSeenAt := some collectedAt
          hostname := orText hostname row.hostname }
        flushMachine id row machine
        ensureClassification id "bmnn" none
        finishImport J id machine machine false payload collectedAt

/-- `str(payload.get("machine_uuid") or "").strip()`. -/
def payloadMachineUuid (payload : List (String × Json)) : String :=
  let named := getD payload "machine_uuid" .null
  if named.truthy then strip (named.pyStr J.reprs) else ""

def importOffline (body : OfflineImportRequest) (caller : Option Uuid) :
    Handler (Except HttpError OfflineImportResponse) := do
  let admin ← requireAdmin caller
  match admin with
  | .error e => return .error e
  | .ok (_, admin) =>
    if !J.verifySignature body.payload body.signatureB64 body.publicKeyPem then
      httpError 400 "Chữ ký không hợp lệ — file có thể đã bị sửa đổi; không import"
    else
      let machineUuid := payloadMachineUuid J body.payload
      match payloadFingerprint body.payload, columnText (getD body.payload "hostname" .null) with
      | some fingerprint, some hostname =>
        if machineUuid = "" ∧ fingerprint = [] then
          httpError 422 "Thiếu machine_uuid/fingerprint"
        else importPayload I J admin body.payload machineUuid fingerprint hostname
      | _, _ => serverError

end Import

/-! ## Requests -/

/-- The settings that the routes read. -/
structure FleetSettings where
  identification : Identification
  importing : Importing
  /-- After this long a machine that is not heard of is offline. -/
  offlineThreshold : ℤ

/-- The requests, and the tick of the monitor. -/
inductive FleetRequest where
  | enroll (body : EnrollRequest)
  | heartbeat (machineCn : Option Uuid)
  | sweepOffline
  | approve (machineId : Uuid) (note : Option String) (caller : Option Uuid)
  | reject (machineId : Uuid) (note : Option String) (caller : Option Uuid)
  | lifecycle (machineId : Uuid) (lifecycle : Option AssetLifecycle) (note : Option String)
      (caller : Option Uuid)
  | importOffline (body : OfflineImportRequest) (caller : Option Uuid)
  | resolveDrift (driftId : Uuid) (approved : Bool) (caller : Option Uuid)

/-- The program of a request. -/
def fleetRoute (c : FleetSettings) : FleetRequest → Handler Unit
  | .enroll body => do let _ ← enroll c.identification body
  | .heartbeat machineCn => do let _ ← heartbeat machineCn
  | .sweepOffline => sweepOffline c.offlineThreshold
  | .approve machineId note caller => do
    let _ ← approveMachine c.offlineThreshold machineId note caller
  | .reject machineId note caller => do let _ ← rejectMachine machineId note caller
  | .lifecycle machineId lifecycle note caller => do
    let _ ← updateLifecycle machineId lifecycle note caller
  | .importOffline body caller => do
    let _ ← importOffline c.identification c.importing body caller
  | .resolveDrift driftId approved caller => do
    let _ ← resolveDrift c.identification driftId approved caller

/-- The engine that runs such requests. -/
abbrev fleetStep (c : FleetSettings) : Engine Data RowKey DataWrite Env Note → Op FleetRequest Env →
      Option (Engine Data RowKey DataWrite Env Note) :=
  Engine.step (fleetRoute c)

/-! ## Settings and data to run them on -/

/-- No rows. -/
def noData : Data where
  organizations := []
  users := .empty
  machines := .empty
  tokens := .empty
  attempts := .empty
  drifts := .empty
  tags := []
  machineTags := []
  dfirRequests := .empty
  investigations := .empty
  specs := []
  current := .empty
  software := []
  heartbeats := []

/-- Nothing is locked, drawn or announced. -/
def storeOf (data : Data) : Store Data RowKey Note := ⟨data, fun _ => none, [], []⟩

/-- What is asked is answered five minutes after the epoch, and the CA signs. -/
def exampleAnswer : Env where
  now := minutes 5
  rank := id
  first := 0
  certificate := some "-----BEGIN CERTIFICATE-----"

/-- Some statements of a transaction. -/
def runStatements {Req : Type} (p : TxId) (n : ℕ) : List (Op Req Env) :=
  List.replicate n (.run p exampleAnswer)

/-- A text stands for its own hash, machines with the same components are the same, and the process has
started at the epoch. -/
def exampleIdentification : Identification where
  sha256 := id
  dumpsSorted := fun fingerprint => "\x7b" ++ join ", " (fingerprint.map Prod.fst) ++ "\x7d"
  isSameMachine := fun a b =>
    some (decide (components.map (fun c => lookup c.1 a) = components.map fun c => lookup c.1 b))
  attemptDefinedAt := 0

/-- Nothing is derived of what a machine reports. -/
def exampleNormalizers : Normalizers where
  osFields := fun _ _ _ => ⟨none, none, "unknown"⟩
  securityFields := fun _ => []
  v4SecurityFields := fun _ => []
  platformFields := fun _ _ => (none, none)
  softwareRows := fun _ => []

/-- Signatures are good, and a payload has no configuration. -/
def exampleImporting : Importing where
  reprs := ⟨fun _ => "", fun _ => ""⟩
  verifySignature := fun _ _ _ => true
  uuidOf := fun _ => none
  timeOf := fun _ => none
  columnsOf := fun _ => none
  normalize := exampleNormalizers

/-- A machine is offline after fifteen minutes. -/
def exampleFleet : FleetSettings := ⟨exampleIdentification, exampleImporting, minutes 15⟩

/-- An administrator of the organisation `0`. -/
def exampleAdmin : User where
  orgId := 0
  fullName := "Quản trị đơn vị"
  email := "admin@example.gov.vn"
  phoneEncrypted := none
  role := .orgAdmin
  passwordHash := none
  totpSecretEncrypted := none
  backupCodes := none
  is2faEnabled := false
  isActive := true
  lastLoginAt := none
  mustChangePassword := false
  totpLastCounter := none

/-- The organisation `0` with its administrator `0`. -/
def adminData : Data :=
  { noData with
    organizations := [⟨0, none⟩]
    users := Table.empty.insert 0 exampleAdmin }

/-- A machine of the organisation `0` that has been approved. -/
def exampleMachine (machineUuid : String) : Machine where
  orgId := 0
  machineUuid := machineUuid
  hostname := none
  fingerprint := [("smbios_uuid", .str machineUuid)]
  status := .online
  lifecycle := .inUse
  isVm := none
  enrolledAt := 0
  lastSeenAt := some 0
  assignedUserId := none
  note := none
  publicIp := none

/-- A token of the organisation `0`. -/
def exampleToken : EnrollToken where
  tokenHash := "token"
  orgId := 0
  createdBy := 0
  fullName := none
  email := none
  note := none
  expiresAt := minutes 60
  usedAt := none
  usedBy := none
  status := .pending
  classification := none
  purposeTags := []

/-- A machine shows the token. -/
def exampleEnrollment (smbiosUuid : String) : FleetRequest :=
  .enroll ⟨"token", some smbiosUuid, none, none, none, none⟩

end AssetInventory.Fleet

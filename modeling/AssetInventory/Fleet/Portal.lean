import AssetInventory.Fleet.Routes

/-!
# Machines in the portal

What the portal shows of a machine, and what its users change.

* `getMachine`, `machineTimeline`, `listMachineInvestigations`: the machine in detail.
* `setMachineTags`, `setMachineTagsBulk`, `assignUser`, `unassignUser`, `requestRescan`: edits.
* `approveAttempt`, `rejectAttempt`: decisions about a machine that was refused.
* `createRequest`: a request to investigate a machine.
* `PortalRequest`, `portalRoute`: these requests and the decisions about machines, with their answers.

The framework has checked the bounds of the numbers in a query.
-/

namespace AssetInventory.Fleet

open PyJson PyTime Orm RowStore ReadCommitted Server

/-- The settings that the routes of the portal read. -/
structure PortalSettings where
  fleet : FleetSettings
  /-- The name of an organisation. -/
  orgName : Uuid → Option String
  /-- The place of a text in the order of the database. -/
  collation : String → ℕ
  maskPhone : Option String → Option String
  encryptPhone : String → String
  /-- The text of `generate_enroll_token`, for a random number. -/
  tokenText : ℕ → String
  /-- When the class `DfirInvestigationRequest` was defined: the default of its column `created_at`. -/
  requestDefinedAt : Time

/-! ## The detail of a machine -/

/-- `latest_spec` of `MachineDetail`. -/
structure LatestSpec where
  reported : Reported
  configHash : Option String
  collectedAt : Time

/-- The columns of a snapshot that are shown; the others are empty. -/
def MachineSpec.shown (s : MachineSpec) : LatestSpec :=
  ⟨{ s.reported with agent := none, osMetadata := none, inventorySchemaVersion := none },
    s.configHash, s.collectedAt⟩

structure MachineDetail where
  id : Uuid
  machine : Machine
  tags : List Tag
  latestSpec : Option LatestSpec
  phoneMasked : Option String
  assignedUserName : Option String
  orgName : Option String

/-- The order of `get_machine_tags`. -/
def tagBefore (collation : String → ℕ) (a b : Tag) : Bool :=
  let kind : Tag → ℕ := fun t => if t.kind = .classification then 0 else 1
  decide (kind a < kind b ∨ kind a = kind b ∧ (a.sortOrder < b.sortOrder ∨
    a.sortOrder = b.sortOrder ∧ collation a.label ≤ collation b.label))

/-- `get_machine_tags`. -/
def machineTagsOf (collation : String → ℕ) (data : Data) (machineId : Uuid) : List Tag :=
  ((data.machineTags.filter fun t => decide (t.machineId = machineId)).filterMap fun t =>
    data.tags.find? fun tag => decide (tag.id = t.tagId)).insertionSort fun a b =>
      tagBefore collation a b = true

variable (c : PortalSettings)

/-- `_assigned_info`: the name and the masked number of the owner of a machine. -/
def assignedInfo (machineId : Uuid) (machine : Machine) :
    Handler (Option String × Option String) := do
  let user ← .select fun data => machine.assignedUserId.bind data.users.get
  let first ← .answer Env.first
  let token ← .select fun data =>
    oneOf (data.tokens.rowsWhere fun t => decide (t.usedBy = some machineId)) first
  let named := token.filter fun x => decide (orText x.2.fullName (orText x.2.email none) ≠ none)
  return ((user.map User.fullName).or (named.bind fun x => x.2.fullName),
    user.bind fun u => c.maskPhone u.phoneEncrypted)

/-- The refusal of the routes that show a machine. -/
def noView : String := "Không có quyền xem máy này"

def getMachine (machineId : Uuid) (caller : Option Uuid) :
    Handler (Except HttpError MachineDetail) := do
  let user ← getCurrentUser caller
  match user with
  | .error e => return .error e
  | .ok (_, user) =>
    let machine ← getMachineInScope machineId user noView
    match machine with
    | .error e => return .error e
    | .ok machine =>
      let first ← .answer Env.first
      let latest ← .select fun data => latestSpec data machineId first
      let (name, phone) ← assignedInfo c machineId machine
      let org ← .select fun data =>
        data.organizations.find? fun row => decide (row.id = machine.orgId)
      let tags ← .select fun data => machineTagsOf c.collation data machineId
      return .ok ⟨machineId, machine, tags, latest.map MachineSpec.shown, phone, name,
        org.bind fun row => c.orgName row.id⟩

/-! ## The timeline of a machine -/

/-- A stretch of time for which the machine was on. -/
structure OnlineSession where
  start : String
  stop : String
  durationSec : ℤ

def sessionGapSeconds : ℤ := 300

/-- The stretch from one heartbeat to another. -/
def sessionBetween (start prev : Time) : OnlineSession :=
  ⟨isoformat start, isoformat prev, (prev - start) / 1000000⟩

/-- The loop over the heartbeats, with `start` and `prev`. -/
def onlineSessions : List Time → Option (Time × Time) → List OnlineSession
  | [], none => []
  | [], some (start, prev) => [sessionBetween start prev]
  | ts :: rest, none => onlineSessions rest (some (ts, ts))
  | ts :: rest, some (start, prev) =>
    if seconds sessionGapSeconds < ts - prev then
      sessionBetween start prev :: onlineSessions rest (some (ts, ts))
    else onlineSessions rest (some (start, ts))

/-- What a machine did on a day. -/
structure DailyOnline where
  date : String
  boots : ℕ
  onlineSec : ℤ

/-- A stretch counts for the day on which it starts. -/
def addDaily (s : OnlineSession) : List DailyOnline → List DailyOnline
  | [] => [⟨truncate 10 s.start, 1, s.durationSec⟩]
  | day :: days =>
    if day.date = truncate 10 s.start then
      { day with boots := day.boots + 1, onlineSec := day.onlineSec + s.durationSec } :: days
    else day :: addDaily s days

/-- The days, the latest first. -/
def dailyOnline (sessions : List OnlineSession) : List DailyOnline :=
  (sessions.foldl (fun days s => addDaily s days) []).insertionSort fun a b => ¬ a.date < b.date

/-- The answer of `machine_timeline`. -/
structure MachineTimeline where
  machineId : Uuid
  hostname : Option String
  days : ℕ
  totalOnlineSec : ℤ
  sessionsCount : ℕ
  daily : List DailyOnline
  sessions : List OnlineSession

/-- The heartbeats of a machine since an instant, in their order. -/
def heartbeatsSince (data : Data) (machineId : Uuid) (cutoff : Time) : List Time :=
  ((data.heartbeats.filter fun h => decide (h.machineId = machineId ∧ cutoff ≤ h.ts)).map
    Heartbeat.ts).insertionSort (· ≤ ·)

def machineTimeline (machineId : Uuid) (days : ℕ) (caller : Option Uuid) :
    Handler (Except HttpError MachineTimeline) := do
  let user ← getCurrentUser caller
  match user with
  | .error e => return .error e
  | .ok (_, user) =>
    let machine ← getMachineInScope machineId user noView
    match machine with
    | .error e => return .error e
    | .ok machine =>
      let time ← now
      let timestamps ← .select fun data =>
        heartbeatsSince data machineId (time - minutes (days * 24 * 60))
      let sessions := onlineSessions timestamps none
      return .ok
        { machineId := machineId
          hostname := machine.hostname
          days := days
          totalOnlineSec := (sessions.map OnlineSession.durationSec).sum
          sessionsCount := sessions.length
          daily := dailyOnline sessions
          sessions := sessions.drop (sessions.length - 200) }

/-! ## The investigations of a machine -/

structure DfirInvestigationOut where
  id : Uuid
  machineId : Uuid
  machineHostname : Option String
  row : DfirInvestigation

/-- `_inv_to_out`; the columns that are not shown are empty. -/
def invToOut (machine : Machine) (inv : Uuid × Investigation) : DfirInvestigationOut :=
  ⟨inv.1, inv.2.machineId, machine.hostname,
    { inv.2.row with
      velociraptorClientId := none
      flowId := none
      rawArtifacts := none
      hermesResponse := none
      externalCallbackIdempotencyKey := none }⟩

structure DfirInvestigationListOut where
  items : List DfirInvestigationOut
  total : ℕ
  page : ℕ
  limit : ℕ
  hasMore : Bool

/-- The investigations of a machine, of one status if one is asked for. -/
def investigationsOf (data : Data) (machineId : Uuid) (statusFilter : Option String) :
    List (Uuid × Investigation) :=
  data.investigations.rowsWhere fun inv => decide (inv.machineId = machineId) &&
    (orText statusFilter none).all fun status => decide (inv.row.status.name = status)

def listMachineInvestigations (machineId : String) (page limit : ℕ) (statusFilter : Option String)
    (caller : Option Uuid) : Handler (Except HttpError DfirInvestigationListOut) := do
  let admin ← requireAdmin caller
  match admin with
  | .error e => return .error e
  | .ok (_, admin) =>
    match c.fleet.importing.uuidOf machineId with
    | none => httpError 404 ("Machine ID không hợp lệ: " ++ c.fleet.importing.reprs.str machineId)
    | some id =>
      let machine ← getMachineInScope id admin noPermission
      match machine with
      | .error e => return .error e
      | .ok machine =>
        let total ← .select fun data => (investigationsOf data id statusFilter).length
        let rank ← .answer Env.rank
        let found ← .select fun data => inOrder rank (investigationsOf data id statusFilter)
        let offset := (page - 1) * limit
        let sorted := found.insertionSort fun a b => b.2.row.createdAt ≤ a.2.row.createdAt
        let rows := (sorted.drop offset).take limit
        return .ok ⟨rows.map (invToOut machine), total, page, limit,
          decide (offset + rows.length < total)⟩

/-! ## Tags -/

/-- `set_machine_classification`; whether the key is one. -/
def setMachineClassification (machineId : Uuid) (key : String) (actor : Option Uuid) :
    Handler Bool := do
  if key ∉ classificationKeys then return false
  else
    let tag ← .select fun data => tagByKey data key
    match tag with
    | none => return false
    | some tag =>
      .insert (.clearTags machineId .classification)
      .insert (.newTag ⟨machineId, tag.id, .classification, actor⟩)
      return true

/-- The classification of several machines, if one is asked for. -/
def classifyAll (classification : Option String) (actor : Option Uuid) :
    List Uuid → Handler (Except HttpError Unit)
  | [] => return .ok ()
  | id :: ids =>
    match classification with
    | none => return .ok ()
    | some key => do
      let ok ← setMachineClassification id key actor
      if ok then classifyAll classification actor ids
      else httpError 422 "Loại máy không hợp lệ — phải là personal | official | bmnn"

/-- The purposes of several machines, if some are asked for. -/
def setPurposeAll (purpose : Option (List String)) (actor : Option Uuid) : List Uuid → Handler Unit
  | [] => return ()
  | id :: ids =>
    match purpose with
    | none => return ()
    | some keys => do
      setMachinePurposeTags id keys actor
      setPurposeAll purpose actor ids

/-- `set_machine_tags_route`. -/
def setMachineTags (machineId : Uuid) (classification : Option String)
    (purpose : Option (List String)) (caller : Option Uuid) :
    Handler (Except HttpError (List Tag)) := do
  let admin ← requireAdmin caller
  match admin with
  | .error e => return .error e
  | .ok (adminId, admin) =>
    let machine ← getMachineInScope machineId admin noPermission
    match machine with
    | .error e => return .error e
    | .ok _ =>
      let classified ← classifyAll classification (some adminId) [machineId]
      match classified with
      | .error e => return .error e
      | .ok () =>
        setPurposeAll purpose (some adminId) [machineId]
        .publish []
        let tags ← .select fun data => machineTagsOf c.collation data machineId
        return .ok tags

structure BulkTagRequest where
  machineIds : List Uuid
  classification : Option String
  purpose : Option (List String)

/-- The second half of `set_machine_tags_bulk`, for the machines that the administrator may see. -/
def tagAllowed (body : BulkTagRequest) (adminId : Uuid) (allowed : List Uuid) :
    Handler (Except HttpError ℕ) := do
  if allowed = [] then httpError 404 "Không có máy nào trong phạm vi quyền"
  else
    let classified ← classifyAll body.classification (some adminId) allowed
    match classified with
    | .error e => return .error e
    | .ok () =>
      setPurposeAll body.purpose (some adminId) allowed
      .publish []
      return .ok allowed.length

/-- `set_machine_tags_bulk`; how many machines have been updated. -/
def setMachineTagsBulk (body : BulkTagRequest) (caller : Option Uuid) :
    Handler (Except HttpError ℕ) := do
  let admin ← requireAdmin caller
  match admin with
  | .error e => return .error e
  | .ok (adminId, admin) =>
    let visible ← .select fun data => visibleOrgs data admin
    let rank ← .answer Env.rank
    let rows ← .select fun data => data.machines.rowsAmong body.machineIds
    let allowed := rows.filter fun x => decide (x.2.orgId ∈ visible)
    tagAllowed body adminId ((inOrder rank allowed).map Prod.fst)

/-! ## The user of a machine -/

/-- `AssignUserRequest`: a user who is there, or a new one. -/
inductive AssignUserRequest where
  | existing (userId : Option Uuid)
  | new (fullName email phone : Option String)

structure AssignUserResponse where
  machineId : Uuid
  assignedUserId : Uuid
  assignedUserName : String
  assignedUserEmail : String
  phoneMasked : Option String
  wasCreated : Bool

/-- A user who has been created for a machine. -/
def newAssignee (orgId : Uuid) (fullName email : String) (phone : Option String) : User where
  orgId := orgId
  fullName := fullName
  email := email
  phoneEncrypted := (orText phone none).map c.encryptPhone
  role := .viewer
  passwordHash := none
  totpSecretEncrypted := none
  backupCodes := none
  is2faEnabled := false
  isActive := true
  lastLoginAt := none
  mustChangePassword := false
  totpLastCounter := none

/-- The user to assign, and whether the user is new. -/
def assigneeOf (machine : Machine) : AssignUserRequest → Handler (Except HttpError (Uuid × Bool))
  | .existing userId => do
    match userId with
    | none => httpError 400 "mode=existing cần user_id"
    | some userId =>
      let user ← .select fun data => data.users.get userId
      match user with
      | none => httpError 404 "User không tồn tại"
      | some user =>
        if user.orgId ≠ machine.orgId then httpError 400 "User phải thuộc cùng tổ chức với máy"
        else return .ok (userId, false)
  | .new fullName email phone => do
    match orText fullName none, orText email none with
    | some fullName, some email =>
      let dup ← .select fun data => data.users.rowsWhere fun u => decide (u.email = email)
      match scalarOneOrNone dup with
      | none => serverError
      | some (some _) => httpError 409 ("Email " ++ email ++ " đã thuộc về user khác")
      | some none =>
        let id ← .fresh
        .insert (.newUser id (newAssignee c machine.orgId fullName email phone))
        return .ok (id, true)
    | _, _ => httpError 400 "mode=new cần full_name và email"

def assignUser (machineId : Uuid) (body : AssignUserRequest) (caller : Option Uuid) :
    Handler (Except HttpError AssignUserResponse) := do
  let admin ← requireAdmin caller
  match admin with
  | .error e => return .error e
  | .ok (_, admin) =>
    let machine ← getMachineInScope machineId admin noPermission
    match machine with
    | .error e => return .error e
    | .ok machine =>
      let assignee ← assigneeOf c machine body
      match assignee with
      | .error e => return .error e
      | .ok (userId, wasCreated) =>
        flushMachine machineId machine { machine with assignedUserId := some userId }
        .publish []
        let user ← .select fun data => data.users.get userId
        match user with
        | none => serverError
        | some user =>
          return .ok ⟨machineId, userId, user.fullName, user.email, c.maskPhone user.phoneEncrypted,
            wasCreated⟩

def unassignUser (machineId : Uuid) (caller : Option Uuid) : Handler (Except HttpError Uuid) := do
  let admin ← requireAdmin caller
  match admin with
  | .error e => return .error e
  | .ok (_, admin) =>
    let machine ← getMachineInScope machineId admin noPermission
    match machine with
    | .error e => return .error e
    | .ok machine =>
      if machine.assignedUserId = none then httpError 404 "Máy chưa gán người dùng"
      else
        flushMachine machineId machine { machine with assignedUserId := none }
        .publish []
        return .ok machineId

/-- `request_rescan`; the machine for which the flag is set. -/
def requestRescan (machineId : Uuid) (caller : Option Uuid) : Handler (Except HttpError Uuid) := do
  let admin ← requireAdmin caller
  match admin with
  | .error e => return .error e
  | .ok (_, admin) =>
    let machine ← getMachineInScope machineId admin noPermission
    match machine with
    | .error e => return .error e
    | .ok _ =>
      .publish []
      return .ok machineId

/-! ## Attempts to enroll -/

def getAttemptInScope (attemptId : Uuid) (admin : User) :
    Handler (Except HttpError EnrollAttempt) := do
  let attempt ← .select fun data => data.attempts.get attemptId
  match attempt with
  | none => httpError 404 "Không tìm thấy yêu cầu enroll"
  | some attempt =>
    match attempt.orgId with
    | none =>
      if isSuperAdmin admin then return .ok attempt
      else httpError 403 "Chỉ Super Admin xử lý attempt token lạ"
    | some orgId =>
      let visible ← .select fun data => visibleOrgs data admin
      if orgId ∈ visible then return .ok attempt else httpError 403 "Không có quyền với yêu cầu này"

def flushAttempt (id : Uuid) (base cur : EnrollAttempt) : Handler Unit := do
  let _ ← .update (.attempt id) fun _ => [.attempt id base cur]
  return ()

/-- The value of the column `token_status`. -/
def Refusal.name : Refusal → String
  | .unknown => "unknown"
  | .used => "used"
  | .expired => "expired"
  | .revoked => "revoked"

/-- The note of a token that replaces another one. -/
def EnrollAttempt.tokenNote (a : EnrollAttempt) : String :=
  "Thay thế cho enroll attempt — máy " ++ (orText a.hostname none).getD "?" ++ ", IP " ++
    (orText a.ip none).getD "?" ++ ", token cũ " ++ a.tokenStatus.name

/-- The token that replaces another one. -/
def replacementToken (attempt : EnrollAttempt) (tokenHash : String) (orgId adminId : Uuid)
    (time : Time) : EnrollToken where
  tokenHash := tokenHash
  orgId := orgId
  createdBy := adminId
  fullName := none
  email := none
  note := some attempt.tokenNote
  expiresAt := time + minutes (72 * 60)
  usedAt := none
  usedBy := none
  status := .pending
  classification := none
  purposeTags := []

/-- `EnrollAttemptApproveResponse`, without the commands that install the agent. -/
structure EnrollAttemptApproveResponse where
  attemptId : Uuid
  token : String
  expiresAt : Time

def approveAttempt (attemptId : Uuid) (note : Option String) (caller : Option Uuid) :
    Handler (Except HttpError EnrollAttemptApproveResponse) := do
  let admin ← requireAdmin caller
  match admin with
  | .error e => return .error e
  | .ok (adminId, admin) =>
    let attempt ← getAttemptInScope attemptId admin
    match attempt with
    | .error e => return .error e
    | .ok attempt =>
      if attempt.status ≠ .pending then httpError 400 "Yêu cầu đã được xử lý"
      else
        match attempt.orgId with
        | none =>
          httpError 400 "Token lạ không xác định được tổ chức — sinh token thủ công theo org đúng"
        | some orgId =>
          let time ← now
          let random ← .fresh
          let token := c.tokenText random
          let id ← .fresh
          .insert (.newToken id
            (replacementToken attempt (c.fleet.identification.sha256 token) orgId adminId time))
          flushAttempt attemptId attempt
            { attempt with
              status := .approved
              decidedBy := some adminId
              decidedAt := some time
              note := orText note attempt.note }
          .publish []
          return .ok ⟨attemptId, token, time + minutes (72 * 60)⟩

def rejectAttempt (attemptId : Uuid) (note : Option String) (caller : Option Uuid) :
    Handler (Except HttpError Decision) := do
  let admin ← requireAdmin caller
  match admin with
  | .error e => return .error e
  | .ok (adminId, admin) =>
    let attempt ← getAttemptInScope attemptId admin
    match attempt with
    | .error e => return .error e
    | .ok attempt =>
      if attempt.status ≠ .pending then httpError 400 "Yêu cầu đã được xử lý"
      else
        let time ← now
        flushAttempt attemptId attempt
          { attempt with
            status := .rejected
            decidedBy := some adminId
            decidedAt := some time
            note := some ("Từ chối: " ++ (orText note none).getD "không rõ lý do" ++
              ((orText attempt.note none).map fun old => "\n" ++ old).getD "") }
        .publish []
        return .ok .rejected

/-! ## Requests to investigate -/

structure DfirInvestigationRequestCreate where
  machineId : Uuid
  artifact : String
  reason : Option String
  urgency : String

/-- `DfirInvestigationRequestOut`, as far as a new request has values for it. -/
structure DfirInvestigationRequestOut where
  id : Uuid
  row : DfirRequest
  machineHostname : Option String
  requestedBy : Option String

def requestToOut (id : Uuid) (req : DfirRequest) : Handler DfirInvestigationRequestOut := do
  let requester ← .select fun data => data.users.get req.requestedBy
  let machine ← .select fun data => data.machines.get req.machineId
  return ⟨id, req, machine.bind Machine.hostname, requester.map User.fullName⟩

def createRequest (body : DfirInvestigationRequestCreate) (caller : Option Uuid) :
    Handler (Except HttpError DfirInvestigationRequestOut) := do
  let user ← requireAdmin caller
  match user with
  | .error e => return .error e
  | .ok (userId, _) =>
    let machine ← .select fun data => data.machines.get body.machineId
    match machine with
    | none => httpError 404 "Máy không tồn tại"
    | some _ =>
      let id ← .fresh
      let req : DfirRequest := ⟨body.machineId, body.artifact, body.reason, body.urgency, "pending",
        userId, c.requestDefinedAt⟩
      .insert (.newDfirRequest id req)
      .publish []
      let out ← requestToOut id req
      return .ok out

/-! ## Requests of the portal -/

/-- The requests about machines. -/
inductive PortalRequest where
  | getMachine (machineId : Uuid) (caller : Option Uuid)
  | timeline (machineId : Uuid) (days : ℕ) (caller : Option Uuid)
  | investigations (machineId : String) (page limit : ℕ) (statusFilter : Option String)
      (caller : Option Uuid)
  | lifecycle (machineId : Uuid) (lifecycle : Option AssetLifecycle) (note : Option String)
      (caller : Option Uuid)
  | approve (machineId : Uuid) (note : Option String) (caller : Option Uuid)
  | reject (machineId : Uuid) (note : Option String) (caller : Option Uuid)
  | setTags (machineId : Uuid) (classification : Option String) (purpose : Option (List String))
      (caller : Option Uuid)
  | bulkTags (body : BulkTagRequest) (caller : Option Uuid)
  | assignUser (machineId : Uuid) (body : AssignUserRequest) (caller : Option Uuid)
  | unassignUser (machineId : Uuid) (caller : Option Uuid)
  | rescan (machineId : Uuid) (caller : Option Uuid)
  | resolveDrift (driftId : Uuid) (approved : Bool) (caller : Option Uuid)
  | approveAttempt (attemptId : Uuid) (note : Option String) (caller : Option Uuid)
  | rejectAttempt (attemptId : Uuid) (note : Option String) (caller : Option Uuid)
  | createDfirRequest (body : DfirInvestigationRequestCreate) (caller : Option Uuid)

/-- Who sends the request. -/
def PortalRequest.caller : PortalRequest → Option Uuid
  | .getMachine _ caller => caller
  | .timeline _ _ caller => caller
  | .investigations _ _ _ _ caller => caller
  | .lifecycle _ _ _ caller => caller
  | .approve _ _ caller => caller
  | .reject _ _ caller => caller
  | .setTags _ _ _ caller => caller
  | .bulkTags _ caller => caller
  | .assignUser _ _ caller => caller
  | .unassignUser _ caller => caller
  | .rescan _ caller => caller
  | .resolveDrift _ _ caller => caller
  | .approveAttempt _ _ caller => caller
  | .rejectAttempt _ _ caller => caller
  | .createDfirRequest _ caller => caller

inductive PortalAnswer where
  | detail (answer : MachineDetail)
  | timeline (answer : MachineTimeline)
  | investigations (answer : DfirInvestigationListOut)
  | lifecycle (answer : AssetLifecycle × MachineStatus)
  | decided (answer : MachineStatus)
  | tags (answer : List Tag)
  | updated (answer : ℕ)
  | assigned (answer : AssignUserResponse)
  | machine (answer : Uuid)
  | drift (answer : FingerprintDriftOut)
  | token (answer : EnrollAttemptApproveResponse)
  | attempt (answer : Decision)
  | request (answer : DfirInvestigationRequestOut)

/-- The answer of a program, as one of the portal. -/
def answering {α : Type} (answer : α → PortalAnswer) (m : Handler (Except HttpError α)) :
    Handler (Except HttpError PortalAnswer) := do
  let r ← m
  return r.map answer

/-- The program of a request. -/
def portalRoute : PortalRequest → Handler (Except HttpError PortalAnswer)
  | .getMachine machineId caller => answering .detail (getMachine c machineId caller)
  | .timeline machineId days caller => answering .timeline (machineTimeline machineId days caller)
  | .investigations machineId page limit statusFilter caller =>
    answering .investigations (listMachineInvestigations c machineId page limit statusFilter caller)
  | .lifecycle machineId lifecycle note caller =>
    answering .lifecycle (updateLifecycle machineId lifecycle note caller)
  | .approve machineId note caller =>
    answering .decided (approveMachine c.fleet.offlineThreshold machineId note caller)
  | .reject machineId note caller => answering .decided (rejectMachine machineId note caller)
  | .setTags machineId classification purpose caller =>
    answering .tags (setMachineTags c machineId classification purpose caller)
  | .bulkTags body caller => answering .updated (setMachineTagsBulk body caller)
  | .assignUser machineId body caller => answering .assigned (assignUser c machineId body caller)
  | .unassignUser machineId caller => answering .machine (unassignUser machineId caller)
  | .rescan machineId caller => answering .machine (requestRescan machineId caller)
  | .resolveDrift driftId approved caller =>
    answering .drift (resolveDrift c.fleet.identification driftId approved caller)
  | .approveAttempt attemptId note caller => answering .token (approveAttempt c attemptId note caller)
  | .rejectAttempt attemptId note caller => answering .attempt (rejectAttempt attemptId note caller)
  | .createDfirRequest body caller => answering .request (createRequest c body caller)

end AssetInventory.Fleet

import AssetInventory.Profiles.Model

/-!
# The routes for system profiles

* `getProfileScoped`, `getProfileMutable`: a profile, for a user who may read or change it.
* `toDetail`: how a profile is shown.
* `syncProfileRequirements`: the rows of a profile for the requirements of its level.
* `createProfile`, `updateProfile`, `deleteProfile`, `submitProfile`, `reviewProfile`,
  `reportImplementation`, `confirmImplementation`: the life of a profile.
* `requestRequirementReview`, `reviewRequirement`: a single requirement of a profile.
* `createLevelRequirement`, `updateLevelRequirement`, `deleteLevelRequirement`: the catalogue.
* `ProfileRequest`, `profileRoute`: the requests, and the program of each.

The framework has checked the lengths of texts and the ranges of numbers.  A commit sends what has been
assigned before it; the statements stand here where they are sent.
-/

namespace AssetInventory.Profiles

open PyJson PyTime Orm RowStore ReadCommitted Server

/-- `require_admin()`. -/
def requireAdmin (caller : Option Uuid) : Handler (Except HttpError (Uuid × User)) :=
  Callers.requireAdmin Data.users caller

/-- `require_super_admin()`. -/
def requireSuperAdmin (caller : Option Uuid) : Handler (Except HttpError (Uuid × User)) :=
  Callers.requireSuperAdmin Data.users caller

/-! ## A profile with its rows -/

/-- A row of a profile, with its entry of the catalogue. -/
structure LoadedRequirement where
  id : Uuid
  row : ProfileRequirement
  requirement : Option LevelRequirement

/-- A profile as a session has it. -/
structure LoadedProfile where
  profile : SystemProfile
  requirements : List LoadedRequirement
  events : List ProfileEvent

/-- The query for a profile, and those for what belongs to it. -/
def loadProfile (profileId : Uuid) : Handler (Option LoadedProfile) := do
  let profile ← .select fun data => data.profiles.get profileId
  match profile with
  | none => return none
  | some profile =>
    let rank ← .answer Env.rank
    let rows ← .select fun data => inOrder rank (requirementsOf data profileId)
    let requirements ← .select fun data => rows.map fun x =>
      (⟨x.1, x.2, data.catalogue.get x.2.requirementId⟩ : LoadedRequirement)
    let events ← .select fun data => data.events.filter fun e => decide (e.profileId = profileId)
    return some ⟨profile, requirements, events⟩

def getProfileScoped (profileId : Uuid) (user : User) : Handler (Except HttpError LoadedProfile) := do
  let loaded ← loadProfile profileId
  match loaded with
  | none => httpError 404 "Không tìm thấy hồ sơ"
  | some loaded =>
    let visible ← .select fun data => visibleOrgs data user
    if !isSuperAdmin user && decide (loaded.profile.orgId ∉ visible) then
      httpError 403 "Hồ sơ ngoài phạm vi của bạn"
    else return .ok loaded

def getProfileMutable (profileId : Uuid) (user : User) :
    Handler (Except HttpError LoadedProfile) := do
  let loaded ← getProfileScoped profileId user
  match loaded with
  | .error e => return .error e
  | .ok loaded =>
    if !isSuperAdmin user && decide (loaded.profile.orgId ≠ user.orgId) then
      httpError 403 "Chỉ được sửa hồ sơ thuộc đơn vị của bạn"
    else return .ok loaded

structure ProfileRequirementOut where
  id : Uuid
  requirementId : Uuid
  code : String
  title : String
  description : Option String
  sortOrder : ℤ
  status : RequirementStatus
  evidence : Option String
  reviewNote : Option String
  requestedAt : Option Time
  reviewedAt : Option Time
  deriving DecidableEq

def reqOut (r : LoadedRequirement) : ProfileRequirementOut where
  id := r.id
  requirementId := r.row.requirementId
  code := (r.requirement.map LevelRequirement.code).getD ""
  title := (r.requirement.map LevelRequirement.title).getD ""
  description := r.requirement.bind LevelRequirement.description
  sortOrder := (r.requirement.map LevelRequirement.sortOrder).getD 0
  status := r.row.status
  evidence := r.row.evidence
  reviewNote := r.row.reviewNote
  requestedAt := r.row.requestedAt
  reviewedAt := r.row.reviewedAt

/-- `SystemProfileDetailOut`. -/
structure ProfileDetail where
  id : Uuid
  profile : SystemProfile
  requirements : List ProfileRequirementOut
  events : List ProfileEvent
  requirementsTotal : ℕ
  requirementsVerified : ℕ
  levelCompliant : Bool
  deriving DecidableEq

/-- How many rows of a loaded profile are verified. -/
def LoadedProfile.verified (loaded : LoadedProfile) : ℕ :=
  loaded.requirements.countP fun r => decide (r.row.status = .verified)

def toDetail (profileId : Uuid) (loaded : LoadedProfile) : ProfileDetail where
  id := profileId
  profile := loaded.profile
  requirements := (loaded.requirements.map reqOut).insertionSort fun a b =>
    a.sortOrder < b.sortOrder ∨ a.sortOrder = b.sortOrder ∧ a.code ≤ b.code
  events := loaded.events.insertionSort fun a b => b.createdAt ≤ a.createdAt
  requirementsTotal := loaded.requirements.length
  requirementsVerified := loaded.verified
  levelCompliant := decide (0 < loaded.requirements.length) &&
    decide (loaded.verified = loaded.requirements.length)

/-- `await db.refresh(profile)`, and the answer. -/
def refreshProfile (profileId : Uuid) : Handler (Except HttpError ProfileDetail) := do
  let loaded ← loadProfile profileId
  match loaded with
  | none => serverError
  | some loaded => return .ok (toDetail profileId loaded)

/-- The profile is loaded again, for the answer. -/
def detailMutable (profileId : Uuid) (user : User) : Handler (Except HttpError ProfileDetail) := do
  let loaded ← getProfileMutable profileId user
  match loaded with
  | .error e => return .error e
  | .ok loaded => return .ok (toDetail profileId loaded)

/-! ## Writes of the session -/

/-- A flush of a profile; whether it was still there.  Nothing is sent when nothing has changed. -/
def flushProfile (id : Uuid) (base cur : SystemProfile) : Handler Bool := do
  if base = cur then return true
  else
    let data ← .update (.profile id) fun _ => [.profile id base cur]
    return (data.profiles.get id).isSome

/-- `_log_event`, flushed; whether the profile that it refers to was there. -/
def logEvents (profileId : Uuid) (actor : Uuid × User) : List (String × String) → Handler Bool
  | [] => return true
  | (event, message) :: entries => do
    let id ← .fresh
    let time ← now
    let there ← .select fun data => (data.profiles.get profileId).isSome
    if there then
      .insert (.newEvent ⟨id, profileId, event, message, some actor.1, some actor.2.fullName, time⟩)
      logEvents profileId actor entries
    else return false

/-- A flush of a profile and of what happened to it, and the commit. -/
def commitProfile (profileId : Uuid) (base cur : SystemProfile) (entries : List (String × String))
    (note : List Note) (actor : Uuid × User) : Handler Bool := do
  let found ← flushProfile profileId base cur
  if found then
    let logged ← logEvents profileId actor entries
    if logged then
      .publish note
      return true
    else return false
  else return false

/-! ## The rows for the requirements of a level -/

/-- A row that has not been there. -/
def newRequirementRow (profileId requirementId : Uuid) : ProfileRequirement :=
  ⟨profileId, requirementId, .pending, none, none, none, none, none, none⟩

/-- The constraints on a new row: unique, and between rows that are there. -/
def admitsRequirement (data : Data) (profileId requirementId : Uuid) : Bool :=
  decide (requirementsFor data profileId requirementId = []) &&
    (data.profiles.get profileId).isSome && (data.catalogue.get requirementId).isSome

/-- `db.add(SystemProfileRequirement(...))` for some entries, flushed; whether they were admitted. -/
def insertRequirements (profileId : Uuid) : List Uuid → Handler Bool
  | [] => return true
  | requirementId :: rest => do
    let id ← .fresh
    let data ← .update (.requirementOf profileId requirementId) fun data =>
      if admitsRequirement data profileId requirementId then
        [.newRequirement id (newRequirementRow profileId requirementId)] else []
    if admitsRequirement data profileId requirementId then insertRequirements profileId rest
    else return false

/-- `db.delete(r)` for some rows, flushed. -/
def removeRequirements : List Uuid → Handler Unit
  | [] => return ()
  | id :: rest => do
    let _ ← .update (.requirement id) fun _ => [.deleteRequirement id]
    removeRequirements rest

/-- `_sync_profile_requirements`, flushed: the inserts are sent before the deletes. -/
def syncProfileRequirements (profileId : Uuid) (loaded : LoadedProfile) : Handler Bool := do
  let rank ← .answer Env.rank
  let rows ← .select fun data => inOrder rank (activeEntries data loaded.profile.level)
  let valid := rows.map Prod.fst
  let existing := loaded.requirements.map fun r => r.row.requirementId
  let inserted ← insertRequirements profileId (valid.filter fun id => decide (id ∉ existing))
  if inserted then
    removeRequirements ((loaded.requirements.filter fun r =>
      decide (r.row.requirementId ∉ valid)).map LoadedRequirement.id)
    return true
  else return false

/-- The second transaction of `create_profile` and `update_profile`, and the answer. -/
def syncProfile (profileId : Uuid) : Handler (Except HttpError ProfileDetail) := do
  let loaded ← loadProfile profileId
  match loaded with
  | none => serverError
  | some loaded =>
    let synced ← syncProfileRequirements profileId loaded
    if synced then
      .publish []
      refreshProfile profileId
    else serverError

/-! ## Creation -/

structure SystemProfileCreate where
  orgId : Uuid
  name : String
  level : ℤ
  description : Option String
  diagramMermaid : Option String
  managedBy : Option String
  documentNumber : Option String
  documentDate : Option Date
  decisionNumber : Option String
  decisionDate : Option Time
  decisionAgency : Option String

def SystemProfileCreate.approvedDirectly (body : SystemProfileCreate) (creator : User) : Bool :=
  isSuperAdmin creator && (given body.decisionNumber).isSome

/-- The profile of an attempt to insert it. -/
def SystemProfileCreate.profile (body : SystemProfileCreate) (creator : Uuid × User) (code : String)
    (time : Time) : SystemProfile :=
  let direct := body.approvedDirectly creator.2
  { orgId := body.orgId
    code := code
    name := strip body.name
    level := body.level
    description := body.description
    status := if direct then .approved else .drafted
    decisionNumber := if direct then body.decisionNumber else none
    decisionDate := if direct then body.decisionDate else none
    decisionAgency := if direct then body.decisionAgency else none
    documentNumber := none
    documentDate := none
    managedBy := none
    reviewedBy := if direct then some creator.1 else none
    reviewedAt := if direct then some time else none
    reviewNote := none
    diagramMermaid := body.diagramMermaid
    physicalDiagramMermaid := none
    diagramLayout := none
    physicalDiagramLayout := none
    physicalLocation := none
    userAccounts := none
    dataVolume := none
    serviceAudience := some "internal"
    createdBy := creator.1 }

/-- The number behind the prefix of the greatest code, or zero. -/
def greatestSeq (start : String) (codes : List String) : ℤ :=
  codes.foldl (fun seq code => max seq ((intOf (dropPrefix start code)).getD seq)) 0

def generateProfileCode (orgId : Uuid) : Handler String := do
  let time ← now
  let start := "HS-" ++ toString (civil (time / 1000000 / 86400)).1 ++ "-"
  let codes ← .select fun data => (data.profiles.rowsWhere fun p =>
    decide (p.orgId = orgId) && startsWith start p.code).map fun x => x.2.code
  return start ++ zeroPad 3 (greatestSeq start codes + 1)

/-- The insert succeeds: the code is new, and there is the organisation. -/
def admitsProfile (data : Data) (orgId : Uuid) (code : String) : Bool :=
  decide (profilesWithCode data orgId code = []) && decide (orgId ∈ data.organizations.map OrgRow.id)

/-- The loop of `_create_profile_with_unique_code`.  An attempt whose insert finds the code taken is rolled
back to its savepoint. -/
def createProfileWithUniqueCode (body : SystemProfileCreate) (creator : Uuid × User) :
    ℕ → Handler (Except HttpError (Uuid × SystemProfile))
  | 0 => serverError
  | attempts + 1 => do
    let code ← generateProfileCode body.orgId
    let time ← now
    let id ← .fresh
    let profile := body.profile creator code time
    let data ← .update (.profileCode body.orgId code) fun data =>
      if admitsProfile data body.orgId code then [.newProfile id profile] else []
    if admitsProfile data body.orgId code then return .ok (id, profile)
    else if profilesWithCode data body.orgId code = [] then serverError
    else
      Prog.backtrack (.profileCode body.orgId code)
      createProfileWithUniqueCode body creator attempts

/-- The message of the event `created`. -/
def SystemProfileCreate.message (body : SystemProfileCreate) : String :=
  "Tạo hồ sơ (cấp độ " ++ toString body.level ++ ")" ++
    ((given body.documentNumber).map fun number => " — số văn bản đề nghị " ++ number).getD ""

def createProfile (body : SystemProfileCreate) (caller : Option Uuid) :
    Handler (Except HttpError ProfileDetail) := do
  let admin ← requireAdmin caller
  match admin with
  | .error e => return .error e
  | .ok admin =>
    if !isSuperAdmin admin.2 && decide (admin.2.orgId ≠ body.orgId) then
      httpError 403 "Chỉ tạo hồ sơ cho đơn vị của bạn"
    else
      let created ← createProfileWithUniqueCode body admin 5
      match created with
      | .error e => return .error e
      | .ok (id, profile) =>
        let saved ← commitProfile id profile
          { profile with
            managedBy := body.managedBy
            documentNumber := body.documentNumber
            documentDate := body.documentDate }
          [("created", body.message)] [] admin
        if saved then syncProfile id else serverError

/-! ## Reading -/

def getProfile (profileId : Uuid) (caller : Option Uuid) :
    Handler (Except HttpError ProfileDetail) := do
  let user ← Callers.getCurrentUser Data.users caller
  match user with
  | .error e => return .error e
  | .ok user =>
    let loaded ← getProfileScoped profileId user.2
    match loaded with
    | .error e => return .error e
    | .ok loaded => return .ok (toDetail profileId loaded)

/-! ## Edits -/

/-- `SystemProfileUpdate`: the fields that are set.  `some none` is an explicit null. -/
structure SystemProfileUpdate where
  name : Option String
  level : Option ℤ
  description : Option (Option String)
  diagramMermaid : Option (Option String)
  physicalDiagramMermaid : Option (Option String)
  diagramLayout : Option (Option Layout)
  physicalDiagramLayout : Option (Option Layout)
  physicalLocation : Option (Option String)
  userAccounts : Option (Option ℤ)
  dataVolume : Option (Option String)
  serviceAudience : Option (Option String)
  managedBy : Option (Option String)
  documentNumber : Option (Option String)
  documentDate : Option (Option Date)

namespace SystemProfileUpdate

variable (body : SystemProfileUpdate) (profile : SystemProfile)

/-- The loop of `setattr`. -/
def assign : SystemProfile :=
  { profile with
    name := body.name.getD profile.name
    level := body.level.getD profile.level
    description := body.description.getD profile.description
    diagramMermaid := body.diagramMermaid.getD profile.diagramMermaid
    physicalDiagramMermaid := body.physicalDiagramMermaid.getD profile.physicalDiagramMermaid
    diagramLayout := body.diagramLayout.getD profile.diagramLayout
    physicalDiagramLayout := body.physicalDiagramLayout.getD profile.physicalDiagramLayout
    physicalLocation := body.physicalLocation.getD profile.physicalLocation
    userAccounts := body.userAccounts.getD profile.userAccounts
    dataVolume := body.dataVolume.getD profile.dataVolume
    serviceAudience := body.serviceAudience.getD profile.serviceAudience
    managedBy := body.managedBy.getD profile.managedBy
    documentNumber := body.documentNumber.getD profile.documentNumber
    documentDate := body.documentDate.getD profile.documentDate }

/-- `set(changes) - {"managed_by"} - layout_fields` is not empty. -/
def touchesContent : Bool :=
  body.name.isSome || body.level.isSome || body.description.isSome || body.diagramMermaid.isSome ||
    body.physicalDiagramMermaid.isSome || body.physicalLocation.isSome || body.userAccounts.isSome ||
    body.dataVolume.isSome || body.serviceAudience.isSome

/-- `service_audience` is missing or one of the values. -/
def audienceOk : Bool :=
  body.serviceAudience.all fun audience => audience.any fun a => decide (a ∈ serviceAudiences)

def levelChanged : Bool := body.level.any fun level => decide (level ≠ profile.level)

/-- `changed_labels`, with `FIELD_LABELS`. -/
def changedLabels : List String :=
  [(body.name.isSome, "Tên hệ thống"), (body.description.isSome, "Mô tả"),
    (body.diagramMermaid.isSome, "Sơ đồ lô-gic"), (body.physicalDiagramMermaid.isSome, "Sơ đồ vật lý"),
    (body.physicalLocation.isSome, "Địa điểm lắp đặt"),
    (body.userAccounts.isSome, "Số lượng tài khoản"), (body.dataVolume.isSome, "Lượng dữ liệu"),
    (body.serviceAudience.isSome, "Đối tượng sử dụng"),
    (body.managedBy.isSome, "Tên chủ quản")].filterMap fun x => if x.1 then some x.2 else none

/-- `f"{date}"`. -/
def dateText (date : Date) : String :=
  let (year, month, day) := civil date
  zeroPad 4 year ++ "-" ++ zeroPad 2 month ++ "-" ++ zeroPad 2 day

/-- `parts` of the event `document_updated`. -/
def documentParts : List String :=
  (body.documentNumber.map fun number => "Số văn bản: " ++ number.getD "None").toList ++
    (body.documentDate.map fun date => "Ngày văn bản: " ++ (date.map dateText).getD "None").toList

/-- The events of an edit. -/
def entries : List (String × String) :=
  (if body.levelChanged profile then
    [("level_changed", "Đổi cấp độ đề xuất: " ++ toString profile.level ++ " → " ++
      toString (body.level.getD profile.level))] else []) ++
  (if body.documentParts = [] then []
    else [("document_updated",
      "Cập nhật văn bản đề nghị — " ++ join "; " body.documentParts)]) ++
  (if body.changedLabels = [] then []
    else [("updated", "Cập nhật hồ sơ: " ++ join ", " body.changedLabels)])

end SystemProfileUpdate

/-- A profile that was rejected is a draft again after an edit. -/
def SystemProfile.reopened (profile : SystemProfile) : SystemProfile :=
  if profile.status = .rejected then { profile with status := .drafted, reviewNote := none } else profile

def frozenStatuses : List ProfileStatus := [.approved, .implemented, .fulfilled]

def updateProfile (profileId : Uuid) (body : SystemProfileUpdate) (caller : Option Uuid) :
    Handler (Except HttpError ProfileDetail) := do
  let admin ← requireAdmin caller
  match admin with
  | .error e => return .error e
  | .ok admin =>
    let loaded ← getProfileMutable profileId admin.2
    match loaded with
    | .error e => return .error e
    | .ok loaded =>
      let profile := loaded.profile
      if decide (profile.status ∈ frozenStatuses) && !isSuperAdmin admin.2 && body.touchesContent then
        httpError 400 ("Hồ sơ đã được phê duyệt — chỉ sửa được tên chủ quản và số văn bản, " ++
          "liên hệ quản trị viên hệ thống để sửa nội dung khác")
      else if !body.audienceOk then httpError 400 "service_audience không hợp lệ"
      else
        let saved ← commitProfile profileId profile (body.assign profile).reopened (body.entries profile)
          (if profile.status = .rejected then [.reopened profileId] else []) admin
        if saved then
          if body.levelChanged profile then syncProfile profileId else refreshProfile profileId
        else serverError

/-! ## Deletion -/

/-- The text of a refusal of `assert_profile_content_mutable`. -/
def contentFrozen (status : ProfileStatus) (action : String) : String :=
  "Hồ sơ đã ở trạng thái '" ++ status.value ++ "' — không thể " ++ action ++
    ". Liên hệ quản trị viên hệ thống để chỉnh sửa."

/-- `assert_profile_content_mutable`; what it raises. -/
def assertProfileContentMutable (profile : SystemProfile) (user : User) (action : String) :
    Option HttpError :=
  if isSuperAdmin user then none
  else if profile.status ∈ frozenStatuses then some ⟨400, contentFrozen profile.status action⟩
  else none

/-- `delete_profile`.  The rows loaded with the profile are deleted before it. -/
def deleteProfile (profileId : Uuid) (caller : Option Uuid) : Handler (Except HttpError Unit) := do
  let admin ← requireAdmin caller
  match admin with
  | .error e => return .error e
  | .ok admin =>
    let loaded ← getProfileMutable profileId admin.2
    match loaded with
    | .error e => return .error e
    | .ok loaded =>
      match assertProfileContentMutable loaded.profile admin.2 "mutate nội dung hồ sơ" with
      | some e => return .error e
      | none =>
        if !isSuperAdmin admin.2 && decide (loaded.profile.status ∉ [.drafted, .rejected]) then
          httpError 400 "Chỉ xóa được hồ sơ chưa trình / bị từ chối"
        else
          removeRequirements (loaded.requirements.map LoadedRequirement.id)
          let _ ← .update (.profile profileId) fun _ => [.deleteProfile profileId]
          .publish []
          return .ok ()

/-! ## The workflow -/

def submitProfile (profileId : Uuid) (caller : Option Uuid) :
    Handler (Except HttpError ProfileDetail) := do
  let admin ← requireAdmin caller
  match admin with
  | .error e => return .error e
  | .ok admin =>
    let loaded ← getProfileMutable profileId admin.2
    match loaded with
    | .error e => return .error e
    | .ok loaded =>
      if loaded.profile.status ∉ [.drafted, .rejected] then
        httpError 400 "Hồ sơ đã được trình hoặc đã duyệt"
      else
        let saved ← commitProfile profileId loaded.profile
          { loaded.profile with status := .pendingReview }
          [("submitted", "Trình hồ sơ để thẩm định")] [.submitted profileId] admin
        if saved then refreshProfile profileId else serverError

/-- The values of `action` in `SystemProfileReview`. -/
inductive ReviewAction where
  | approve | reject
  deriving DecidableEq

structure SystemProfileReview where
  action : ReviewAction
  decisionNumber : Option String
  decisionDate : Option Time
  decisionAgency : Option String
  reviewNote : Option String

def reviewProfile (profileId : Uuid) (body : SystemProfileReview) (caller : Option Uuid) :
    Handler (Except HttpError ProfileDetail) := do
  let admin ← requireSuperAdmin caller
  match admin with
  | .error e => return .error e
  | .ok admin =>
    let loaded ← getProfileMutable profileId admin.2
    match loaded with
    | .error e => return .error e
    | .ok loaded =>
      if loaded.profile.status ≠ .pendingReview then
        httpError 400 "Chỉ duyệt được hồ sơ đang chờ duyệt"
      else
        let time ← now
        match body.action with
        | .approve =>
          match given body.decisionNumber with
          | none => httpError 400 "Phải nhập số quyết định phê duyệt"
          | some number =>
            let saved ← commitProfile profileId loaded.profile
              { loaded.profile with
                status := .approved
                decisionNumber := some (strip number)
                decisionDate := some (body.decisionDate.getD time)
                decisionAgency := body.decisionAgency
                reviewNote := body.reviewNote
                reviewedBy := some admin.1
                reviewedAt := some time }
              [("approved", "Phê duyệt hồ sơ — quyết định " ++ strip number)] [.approved profileId] admin
            if saved then refreshProfile profileId else serverError
        | .reject =>
          match given (body.reviewNote.map strip) with
          | none => httpError 400 "Phải nhập lý do từ chối để đơn vị biết và sửa hồ sơ"
          | some note =>
            let saved ← commitProfile profileId loaded.profile
              { loaded.profile with
                status := .rejected
                reviewNote := some note
                reviewedBy := some admin.1
                reviewedAt := some time }
              [("rejected", "Từ chối hồ sơ: " ++ note)] [.rejected profileId] admin
            if saved then refreshProfile profileId else serverError

/-- A note behind the message of an event. -/
def withNote (message before : String) (note : Option String) : String :=
  message ++ ((given (note.map strip)).map fun note => before ++ note).getD ""

/-- The refusal of a report while requirements are open. -/
def notMet (loaded : LoadedProfile) : String :=
  "Chưa đáp ứng đủ yêu cầu cấp độ " ++ toString loaded.profile.level ++ " (" ++
    toString loaded.verified ++ "/" ++ toString loaded.requirements.length ++
    " đã thẩm định đạt) — hãy trình và hoàn tất thẩm định trước khi khai báo triển khai"

/-- `report_implementation`, with the note of its body. -/
def reportImplementation (profileId : Uuid) (note : Option String) (caller : Option Uuid) :
    Handler (Except HttpError ProfileDetail) := do
  let admin ← requireAdmin caller
  match admin with
  | .error e => return .error e
  | .ok admin =>
    let loaded ← getProfileMutable profileId admin.2
    match loaded with
    | .error e => return .error e
    | .ok loaded =>
      if loaded.profile.status ≠ .approved then
        httpError 400 "Chỉ khai báo được với hồ sơ đã được phê duyệt"
      else if !isSuperAdmin admin.2 && decide (admin.2.orgId ≠ loaded.profile.orgId) then
        httpError 403 "Chỉ đơn vị của hồ sơ được khai báo triển khai"
      else if loaded.requirements.length = 0 ∨ loaded.verified < loaded.requirements.length then
        httpError 400 (notMet loaded)
      else
        let saved ← commitProfile profileId loaded.profile
          { loaded.profile with
            status := .implemented
            reviewNote := ((given note).map strip).or loaded.profile.reviewNote }
          [("implementation_reported",
            withNote "Đơn vị khai báo đã triển khai hệ thống theo hồ sơ" " — note: " note)]
          [.reported profileId] admin
        if saved then detailMutable profileId admin.2 else serverError

/-- `confirm_implementation`, with the note of its body. -/
def confirmImplementation (profileId : Uuid) (reviewNote : Option String) (caller : Option Uuid) :
    Handler (Except HttpError ProfileDetail) := do
  let admin ← requireSuperAdmin caller
  match admin with
  | .error e => return .error e
  | .ok admin =>
    let loaded ← getProfileMutable profileId admin.2
    match loaded with
    | .error e => return .error e
    | .ok loaded =>
      if loaded.profile.status ≠ .implemented then
        httpError 400 "Chỉ xác nhận được hồ sơ đang ở trạng thái đã khai báo triển khai"
      else
        let time ← now
        let saved ← commitProfile profileId loaded.profile
          { loaded.profile with
            reviewNote := ((given reviewNote).map strip).or loaded.profile.reviewNote
            status := .fulfilled
            reviewedBy := some admin.1
            reviewedAt := some time }
          [("fulfilled",
            withNote "Xác nhận đơn vị đã đáp ứng hồ sơ" " — review_note: " reviewNote)]
          [.confirmed profileId] admin
        if saved then detailMutable profileId admin.2 else serverError

/-! ## The requirements of a profile -/

/-- A flush of a row of a profile; whether it was still there. -/
def flushRequirement (id : Uuid) (base cur : ProfileRequirement) : Handler Bool := do
  if base = cur then return true
  else
    let data ← .update (.requirement id) fun _ => [.requirement id base cur]
    return (data.requirements.get id).isSome

/-- A flush of a row of a profile and of what happened, and the commit.  The message of the event depends
on the title of the requirement. -/
def commitRequirement (id : Uuid) (base cur : ProfileRequirement) (event : String)
    (message : String → String) (actor : Uuid × User) : Handler Bool := do
  let found ← flushRequirement id base cur
  if found then
    let title ← .select fun data =>
      ((data.catalogue.get base.requirementId).map LevelRequirement.title).getD ""
    let logged ← logEvents base.profileId actor [(event, message title)]
    if logged then
      .publish []
      return true
    else return false
  else return false

/-- `request_requirement_review`, with the evidence of its body. -/
def requestRequirementReview (profileId rowId : Uuid) (evidence : String) (caller : Option Uuid) :
    Handler (Except HttpError ProfileDetail) := do
  let admin ← requireAdmin caller
  match admin with
  | .error e => return .error e
  | .ok admin =>
    let loaded ← getProfileMutable profileId admin.2
    match loaded with
    | .error e => return .error e
    | .ok _ =>
      let row ← .select fun data =>
        (data.requirements.get rowId).filter fun r => decide (r.profileId = profileId)
      match row with
      | none => httpError 404 "Không tìm thấy yêu cầu trong hồ sơ"
      | some row =>
        if row.status ∈ [.requested, .verified] then
          httpError 400 "Yêu cầu đang chờ thẩm định hoặc đã được thẩm định đạt"
        else
          let time ← now
          let saved ← commitRequirement rowId row
            { row with
              status := .requested
              evidence := some (strip evidence)
              requestedBy := some admin.1
              requestedAt := some time
              reviewNote := none }
            "requirement_requested" (fun title => "Trình thẩm định yêu cầu ATTT: " ++ title) admin
          if saved then detailMutable profileId admin.2 else serverError

structure ProfileRequirementReview where
  /-- The action is `verify`, and not `reject`. -/
  verify : Bool
  reviewNote : Option String

/-- The event of a decision about a requirement. -/
def ProfileRequirementReview.event (body : ProfileRequirementReview) : String :=
  if body.verify then "requirement_verified" else "requirement_rejected"

def ProfileRequirementReview.message (body : ProfileRequirementReview) (title : String) : String :=
  if body.verify then "Thẩm định ĐẠT yêu cầu ATTT: " ++ title
  else "Thẩm định KHÔNG ĐẠT yêu cầu ATTT: " ++ title ++
    ((given body.reviewNote).map fun note => " — " ++ note).getD ""

def reviewRequirement (profileId rowId : Uuid) (body : ProfileRequirementReview)
    (caller : Option Uuid) : Handler (Except HttpError ProfileDetail) := do
  let admin ← requireSuperAdmin caller
  match admin with
  | .error e => return .error e
  | .ok admin =>
    let loaded ← getProfileMutable profileId admin.2
    match loaded with
    | .error e => return .error e
    | .ok _ =>
      let row ← .select fun data =>
        (data.requirements.get rowId).filter fun r => decide (r.profileId = profileId)
      match row with
      | none => httpError 404 "Không tìm thấy yêu cầu trong hồ sơ"
      | some row =>
        if row.status ≠ .requested then
          httpError 400 "Chỉ thẩm định được yêu cầu đang chờ thẩm định"
        else
          let time ← now
          let saved ← commitRequirement rowId row
            { row with
              status := if body.verify then .verified else .rejected
              reviewedBy := some admin.1
              reviewedAt := some time
              reviewNote := body.reviewNote }
            body.event body.message admin
          if saved then detailMutable profileId admin.2 else serverError

/-! ## The catalogue -/

/-- The entry of the catalogue as it is now. -/
def refreshLevel (id : Uuid) : Handler (Except HttpError (Uuid × LevelRequirement)) := do
  let entry ← .select fun data => data.catalogue.get id
  match entry with
  | none => serverError
  | some entry => return .ok (id, entry)

/-- `create_level_requirement`; the body has the columns of a row. -/
def createLevelRequirement (body : LevelRequirement) (caller : Option Uuid) :
    Handler (Except HttpError (Uuid × LevelRequirement)) := do
  let admin ← requireSuperAdmin caller
  match admin with
  | .error e => return .error e
  | .ok _ =>
    let exists_ ← .select fun data => scalarOneOrNone (entriesWithCode data body.code)
    match exists_ with
    | none => serverError
    | some (some _) => httpError 409 ("Mã yêu cầu '" ++ body.code ++ "' đã tồn tại")
    | some none =>
      let entry := { body with code := strip body.code, title := strip body.title }
      let id ← .fresh
      let data ← .update (.levelCode entry.code) fun data =>
        if entriesWithCode data entry.code = [] then [.newLevel id entry] else []
      if entriesWithCode data entry.code = [] then
        .publish []
        refreshLevel id
      else serverError

/-- `LevelRequirementUpdate`: the fields that are set.  `some none` is an explicit null. -/
structure LevelRequirementUpdate where
  title : Option (Option String)
  description : Option (Option String)
  sortOrder : Option (Option ℤ)
  isActive : Option (Option Bool)

/-- No column that is `NOT NULL` gets a null. -/
def LevelRequirementUpdate.hasValues (body : LevelRequirementUpdate) : Bool :=
  decide (body.title ≠ some none) && decide (body.sortOrder ≠ some none) &&
    decide (body.isActive ≠ some none)

/-- The loop of `setattr`, for values that are not null. -/
def LevelRequirementUpdate.assign (body : LevelRequirementUpdate) (entry : LevelRequirement) :
    LevelRequirement :=
  { entry with
    title := (body.title.getD none).getD entry.title
    description := body.description.getD entry.description
    sortOrder := (body.sortOrder.getD none).getD entry.sortOrder
    isActive := (body.isActive.getD none).getD entry.isActive }

/-- A flush of an entry of the catalogue; whether it was still there. -/
def flushLevel (id : Uuid) (base cur : LevelRequirement) : Handler Bool := do
  if base = cur then return true
  else
    let data ← .update (.level id) fun _ => [.level id base cur]
    return (data.catalogue.get id).isSome

def updateLevelRequirement (id : Uuid) (body : LevelRequirementUpdate) (caller : Option Uuid) :
    Handler (Except HttpError (Uuid × LevelRequirement)) := do
  let admin ← requireSuperAdmin caller
  match admin with
  | .error e => return .error e
  | .ok _ =>
    let entry ← .select fun data => data.catalogue.get id
    match entry with
    | none => httpError 404 "Không tìm thấy yêu cầu"
    | some entry =>
      if body.hasValues then
        let found ← flushLevel id entry (body.assign entry)
        if found then
          .publish []
          refreshLevel id
        else serverError
      else serverError

def deleteLevelRequirement (id : Uuid) (caller : Option Uuid) : Handler (Except HttpError Unit) := do
  let admin ← requireSuperAdmin caller
  match admin with
  | .error e => return .error e
  | .ok _ =>
    let entry ← .select fun data => data.catalogue.get id
    match entry with
    | none => httpError 404 "Không tìm thấy yêu cầu"
    | some _ =>
      let referenced ← .select fun data => (referencesTo data id).length
      if referenced ≠ 0 then
        httpError 409
          "Yêu cầu đang được dùng trong hồ sơ — hãy tắt bật (is_active=false) thay vì xóa"
      else
        let data ← .update (.level id) fun data =>
          if referencesTo data id = [] then [.deleteLevel id] else []
        if referencesTo data id = [] then
          .publish []
          return .ok ()
        else serverError

/-! ## The requests -/

/-- A request to the routes. -/
inductive ProfileRequest where
  | get (profileId : Uuid)
  | create (body : SystemProfileCreate)
  | update (profileId : Uuid) (body : SystemProfileUpdate)
  | delete (profileId : Uuid)
  | submit (profileId : Uuid)
  | review (profileId : Uuid) (body : SystemProfileReview)
  | report (profileId : Uuid) (note : Option String)
  | confirm (profileId : Uuid) (reviewNote : Option String)
  | requestReview (profileId rowId : Uuid) (evidence : String)
  | reviewRequirement (profileId rowId : Uuid) (body : ProfileRequirementReview)
  | createLevel (body : LevelRequirement)
  | updateLevel (id : Uuid) (body : LevelRequirementUpdate)
  | deleteLevel (id : Uuid)

inductive ProfileAnswer where
  | detail (profile : ProfileDetail)
  | level (id : Uuid) (entry : LevelRequirement)
  | noContent
  deriving DecidableEq

/-- The program of a request, with the id that the access token says. -/
def profileRoute : ProfileRequest × Option Uuid → Handler (Except HttpError ProfileAnswer)
  | (.get profileId, caller) => return (← getProfile profileId caller).map .detail
  | (.create body, caller) => return (← createProfile body caller).map .detail
  | (.update profileId body, caller) => return (← updateProfile profileId body caller).map .detail
  | (.delete profileId, caller) => return (← deleteProfile profileId caller).map fun _ => .noContent
  | (.submit profileId, caller) => return (← submitProfile profileId caller).map .detail
  | (.review profileId body, caller) => return (← reviewProfile profileId body caller).map .detail
  | (.report profileId note, caller) =>
    return (← reportImplementation profileId note caller).map .detail
  | (.confirm profileId note, caller) =>
    return (← confirmImplementation profileId note caller).map .detail
  | (.requestReview profileId rowId evidence, caller) =>
    return (← requestRequirementReview profileId rowId evidence caller).map .detail
  | (.reviewRequirement profileId rowId body, caller) =>
    return (← Profiles.reviewRequirement profileId rowId body caller).map .detail
  | (.createLevel body, caller) =>
    return (← createLevelRequirement body caller).map fun x => .level x.1 x.2
  | (.updateLevel id body, caller) =>
    return (← updateLevelRequirement id body caller).map fun x => .level x.1 x.2
  | (.deleteLevel id, caller) =>
    return (← deleteLevelRequirement id caller).map fun _ => .noContent

/-- The program of a request, for its effect. -/
def profileHandler (request : ProfileRequest × Option Uuid) : Handler Unit := do
  let _ ← profileRoute request
  return ()

end AssetInventory.Profiles

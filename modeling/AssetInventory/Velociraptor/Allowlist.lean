import AssetInventory.Server.Auth
import AssetInventory.Velociraptor.Queries

/-!
# The allowlist of artifacts

The configuration of the Velociraptor server lists the artifacts that may be collected.  Hunts, schedules
and the collection for the Top 10 look at the list; a schedule that is started by hand does not.

* `Desk`: the tables, and every collection that was asked for, with the list as it was then.
* `updateVelociraptorConfig`, `createVelociraptorHunt`, `createDfirSchedule`, `updateDfirSchedule`,
  `deleteDfirSchedule`, `runDfirScheduleNow`, `collectMissingTop10`: the routes.
* `Action.Within`: a schedule that is started by hand has an artifact of the list, or nobody to collect from.
* `allowed_iff_within`: every collection is of an artifact of the list exactly when all actions are so.
* `run_off_the_list`: a schedule whose artifact has left the list.
-/

namespace AssetInventory.Velociraptor

open PyJson PyTime RowStore Server

/-! ## The tables -/

/-- The row of `velociraptor_config`. -/
structure VelociraptorConfig where
  enabled : Bool
  serverUrl : Option String
  apiTokenEncrypted : Option String
  basicAuthEncrypted : Option String
  clientConfigEncrypted : Option String
  allowlist : Option (List String)
  deriving DecidableEq

/-- A row of `velociraptor_links`. -/
structure VelociraptorLink where
  machineId : Uuid
  clientId : String
  deriving DecidableEq

/-- The scope of a hunt or a schedule. -/
inductive HuntScope where
  | all | single | multi
  deriving DecidableEq

/-- A row of `dfir_schedules`. -/
structure DfirSchedule where
  name : String
  artifact : String
  scope : HuntScope
  machineIds : Option (List Uuid)
  intervalSeconds : ℤ
  enabled : Bool
  lastRunAt : Option Time
  nextRunAt : Time
  lastStatus : Option String
  lastError : Option String
  requestedBy : Uuid
  deriving DecidableEq

/-- A row of `dfir_hunts`. -/
structure DfirHunt where
  huntId : Option String
  artifact : String
  scope : HuntScope
  machineId : Option Uuid
  requestedBy : Uuid
  status : String
  notes : String
  error : Option String
  deriving DecidableEq

/-- A call of `collect_artifact`, with the allowlist as it was configured then. -/
structure CollectCall where
  clientId : String
  artifact : String
  allowlist : List String
  deriving DecidableEq

def CollectCall.Allowed (call : CollectCall) : Prop := call.artifact ∈ call.allowlist

instance (call : CollectCall) : Decidable call.Allowed := by
  unfold CollectCall.Allowed
  infer_instance

/-- The tables, and the calls so far. -/
structure Desk where
  config : Option VelociraptorConfig
  machines : List Uuid
  links : List VelociraptorLink
  schedules : Table Uuid DfirSchedule
  hunts : List DfirHunt
  calls : List CollectCall

def Desk.allowlist (desk : Desk) : List String := (desk.config.bind VelociraptorConfig.allowlist).getD []

/-! ## What the world outside answers -/

/-- An exception of the client. -/
inductive ClientExc where
  | velociraptor (message : VelociraptorError)
  | other (message : String)

/-- `str(e)`. -/
def ClientExc.message : ClientExc → String
  | .velociraptor message => message
  | .other message => message

/-- An exception of the parser of a client configuration. -/
inductive ParseExc where
  | valueError (message : String)
  | typeError (message : String)

/-- `str(e)`. -/
def ParseExc.message : ParseExc → String
  | .valueError message => message
  | .typeError message => message

structure ClientFlow where
  artifacts : List String
  state : String
  flowId : Option String

/-- What a request meets. -/
structure Outside where
  now : Time
  newId : Uuid
  encrypt : String → String
  /-- `decrypt_aes_gcm`; an exception is its text. -/
  decrypt : String → Except String String
  /-- `parse_client_config_yaml` and `inspect_client_cert`. -/
  parseYaml : String → Except ParseExc Unit
  inspectCert : String → Except String Unit
  /-- The reading of the stored user name and password. -/
  parseBasic : String → Except String Unit
  /-- The exception of opening the client, if there is one. -/
  opening : Option ClientExc
  /-- `get_all_clients`: the ids. -/
  clients : Except ClientExc (List (Option String))
  /-- `collect_artifact` of a client: the id of the flow. -/
  collect : String → String → Except ClientExc String
  /-- `_client_system`. -/
  system : String → Option String
  /-- `list_client_flows`, the newest first. -/
  flows : String → Except ClientExc (List ClientFlow)

/-! ## The configuration -/

/-- `_build_velociraptor_client`: the configuration of the client, if there is one. -/
def buildVelociraptorClient (out : Outside) (desk : Desk) :
    Except HttpError (Option VelociraptorConfig) :=
  match desk.config with
  | none => .ok none
  | some cfg =>
    if !cfg.enabled || (given cfg.serverUrl).isNone then .ok none
    else
      match given cfg.clientConfigEncrypted with
      | some text =>
        match out.decrypt text >>= fun yaml => (out.parseYaml yaml).mapError ParseExc.message with
        | .error e => .error ⟨500, "Không giải mã / parse client_config YAML: " ++ e⟩
        | .ok _ => .ok (some cfg)
      | none =>
        match given cfg.basicAuthEncrypted with
        | some text =>
          match out.decrypt text >>= out.parseBasic with
          | .error e => .error ⟨500, "Không giải mã credentials: " ++ e⟩
          | .ok _ => .ok (some cfg)
        | none =>
          match given cfg.apiTokenEncrypted with
          | some text =>
            match out.decrypt text with
            | .error e => .error ⟨500, "Không giải mã API token: " ++ e⟩
            | .ok _ => .ok (some cfg)
          | none => .ok none

structure VelociraptorConfigUpdate where
  enabled : Option Bool
  serverUrl : Option String
  clientConfig : Option String
  username : Option String
  password : Option String
  apiToken : Option String
  allowlist : Option (List String)

/-- The new allowlist. -/
def cleanAllowlist (allowlist : List String) : List String :=
  (((allowlist.map strip).filter fun a => decide (a ≠ "")).dedup).insertionSort fun a b => a ≤ b

/-- The new `server_url`. -/
def newServerUrl (body : VelociraptorConfigUpdate) (cfg : VelociraptorConfig) :
    Except HttpError VelociraptorConfig :=
  match body.serverUrl with
  | none => .ok cfg
  | some url =>
    let url := strip url
    if url ≠ "" ∧ !(startsWith "http://" url || startsWith "https://" url) then
      .error ⟨422, "server_url phải bắt đầu bằng http:// hoặc https://"⟩
    else .ok { cfg with serverUrl := given (some url) }

/-- The new `client_config`. -/
def newClientConfig (out : Outside) (body : VelociraptorConfigUpdate) (cfg : VelociraptorConfig) :
    Except HttpError VelociraptorConfig :=
  match body.clientConfig with
  | none => .ok cfg
  | some text =>
    if strip text = "" then .ok { cfg with clientConfigEncrypted := none }
    else
      match out.parseYaml text with
      | .error (.valueError e) => .error ⟨422, "client_config YAML không hợp lệ: " ++ e⟩
      | .error (.typeError _) => .error ⟨500, "Internal Server Error"⟩
      | .ok _ =>
        match out.inspectCert text with
        | .error e => .error ⟨422, "client_cert trong YAML không phải PEM hợp lệ: " ++ e⟩
        | .ok _ => .ok { cfg with clientConfigEncrypted := some (out.encrypt text) }

/-- The new user name and password, as a JSON object. -/
def newBasicAuth (out : Outside) (body : VelociraptorConfigUpdate) (cfg : VelociraptorConfig) :
    Except HttpError VelociraptorConfig :=
  if body.username.isNone && body.password.isNone then .ok cfg
  else
    let username := strip (body.username.getD "")
    let password := strip (body.password.getD "")
    if password = "" ∧ username = "" then .ok { cfg with basicAuthEncrypted := none }
    else if password = "" then
      .error ⟨422, "username + password phải đi cùng nhau (hoặc cả 2 rỗng để xoá)."⟩
    else
      let creds := String.ofList (dumpsStr "username" ++ ": ".toList ++ dumpsStr username ++ ", ".toList ++
        dumpsStr "password" ++ ": ".toList ++ dumpsStr password)
      .ok { cfg with basicAuthEncrypted := some (out.encrypt ("\x7b" ++ creds ++ "\x7d")) }

def newApiToken (out : Outside) (body : VelociraptorConfigUpdate) (cfg : VelociraptorConfig) :
    VelociraptorConfig :=
  match body.apiToken with
  | none => cfg
  | some token =>
    if strip token = "" then { cfg with apiTokenEncrypted := none }
    else { cfg with apiTokenEncrypted := some (out.encrypt (strip token)) }

/-- `update_velociraptor_config`; `defaults` is the list of the settings. -/
def updateVelociraptorConfig (defaults : List String) (out : Outside) (body : VelociraptorConfigUpdate)
    (desk : Desk) : Desk × Except HttpError VelociraptorConfig :=
  let cfg := desk.config.getD ⟨false, none, none, none, none, some defaults⟩
  let changed : Except HttpError VelociraptorConfig := do
    let cfg ← newServerUrl body { cfg with enabled := body.enabled.getD cfg.enabled }
    let cfg ← newClientConfig out body cfg
    let cfg ← newBasicAuth out body cfg
    let cfg := newApiToken out body cfg
    return match body.allowlist with
      | none => cfg
      | some allowlist => { cfg with allowlist := some (cleanAllowlist allowlist) }
  match changed with
  | .error e => (desk, .error e)
  | .ok cfg => ({ desk with config := some cfg }, .ok cfg)

def validateArtifact (artifact : String) (allowlist : List String) : Option HttpError :=
  if artifact ∈ allowlist then none
  else some ⟨403, "Artifact '" ++ artifact ++ "' không nằm trong allowlist. " ++
    "Cập nhật allowlist ở /dfir/settings (Super Admin) trư�c khi chạy."⟩

/-! ## Collections -/

/-- `collect_artifact` for some clients: the desk with the calls, and the ids of the flows. -/
def collectFrom (out : Outside) (artifact : String) (clientIds : List String) (desk : Desk) :
    Desk × List String :=
  ({ desk with calls := desk.calls ++ clientIds.map fun c => ⟨c, artifact, desk.allowlist⟩ },
    (clientIds.filterMap fun c => (out.collect c artifact).toOption).filter fun flow => decide (flow ≠ ""))

/-- The ids of the clients that `get_all_clients` returns. -/
def clientIds (clients : List (Option String)) : List String := clients.filterMap given

structure DfirHuntCreate where
  artifact : String
  scope : HuntScope
  machineId : Option Uuid
  machineIds : Option (List Uuid)
  notes : Option String

inductive HuntTargets where
  | single (clientId : String)
  | multi (clientIds : List String)
  | all

/-- The links of some machines. -/
def Desk.linksOf (desk : Desk) (machineIds : List Uuid) : List VelociraptorLink :=
  desk.links.filter fun link => decide (link.machineId ∈ machineIds)

/-- The checks of the scope. -/
def huntTargets (desk : Desk) (body : DfirHuntCreate) : Except HttpError HuntTargets :=
  match body.scope with
  | .single =>
    match body.machineId with
    | none => .error ⟨422, "scope=single yêu cầu machine_id"⟩
    | some machineId =>
      if machineId ∉ desk.machines then .error ⟨404, "Không tìm thấy máy"⟩
      else
        match desk.links.find? fun link => decide (link.machineId = machineId) with
        | none =>
          .error ⟨409, "Máy này chưa được link với Velociraptor — chờ background sync (≤5 phút)"⟩
        | some link => .ok (.single link.clientId)
  | .multi =>
    let machineIds := body.machineIds.getD []
    if machineIds = [] then .error ⟨422, "scope=multi yêu cầu machine_ids (ít nhất 1)"⟩
    else
      let links := desk.linksOf machineIds
      let missing := machineIds.dedup.filter fun m => decide (m ∉ links.map VelociraptorLink.machineId)
      if links = [] then .error ⟨409, "Không có máy nào trong danh sách đã link Velociraptor"⟩
      else if missing ≠ [] then
        .error ⟨409, toString missing.length ++ " máy chưa link Velociraptor (chờ sync ≤5p)"⟩
      else .ok (.multi (links.map VelociraptorLink.clientId))
  | .all => .ok .all

/-- How the collection of a hunt ends. -/
inductive HuntEnd where
  /-- The id for the hunt, and the number of clients. -/
  | done (huntId : Option String) (clientCount : ℕ)
  | refused (e : HttpError)
  | raised (e : ClientExc)

def collectHunt (out : Outside) (artifact : String) (targets : HuntTargets) (desk : Desk) :
    Desk × HuntEnd :=
  match out.opening with
  | some e => (desk, .raised e)
  | none =>
    match targets with
    | .single clientId =>
      let (desk, _) := collectFrom out artifact [clientId] desk
      match out.collect clientId artifact with
      | .error e => (desk, .raised e)
      | .ok flow => (desk, .done (given (some flow)) 1)
    | .multi ids =>
      let (desk, flows) := collectFrom out artifact ids desk
      (desk, .done flows.head? flows.length)
    | .all =>
      match out.clients with
      | .error e => (desk, .raised e)
      | .ok clients =>
        if clientIds clients = [] then
          (desk, .refused
            ⟨409, "Velociraptor không trả về client nào — kiểm tra agent đã enroll chưa"⟩)
        else
          let (desk, flows) := collectFrom out artifact (clientIds clients) desk
          (desk, .done flows.head? flows.length)

def createVelociraptorHunt (out : Outside) (admin : Uuid) (body : DfirHuntCreate) (desk : Desk) :
    Desk × Except HttpError (DfirHunt × ℕ) :=
  match buildVelociraptorClient out desk with
  | .error e => (desk, .error e)
  | .ok none =>
    (desk, .error ⟨400, "Velociraptor chưa cấu hình (enabled=False hoặc thiếu URL/token)"⟩)
  | .ok (some cfg) =>
    match validateArtifact body.artifact (cfg.allowlist.getD []) with
    | some e => (desk, .error e)
    | none =>
      match huntTargets desk body with
      | .error e => (desk, .error e)
      | .ok targets =>
        let hunt : DfirHunt :=
          ⟨none, body.artifact, body.scope, body.machineId, admin, "pending", body.notes.getD "", none⟩
        let (after, ended) := collectHunt out body.artifact targets desk
        match ended with
        | .done huntId clientCount =>
          let hunt := { hunt with huntId := huntId, status := "completed" }
          ({ after with hunts := after.hunts ++ [hunt] }, .ok (hunt, clientCount))
        | .refused e => ({ after with hunts := after.hunts ++ [{ hunt with status := "error" }] }, .error e)
        | .raised (.velociraptor e) =>
          ({ after with hunts := after.hunts ++ [{ hunt with status := "error", error := some e }] },
            .error ⟨502, "Velociraptor API lỗi: " ++ e⟩)
        | .raised (.other _) => (after, .error ⟨500, "Internal Server Error"⟩)

/-! ## Schedules -/

structure DfirScheduleCreate where
  name : String
  artifact : String
  scope : HuntScope
  machineIds : Option (List Uuid)
  intervalSeconds : ℤ

def createDfirSchedule (out : Outside) (admin : Uuid) (body : DfirScheduleCreate) (desk : Desk) :
    Desk × Except HttpError DfirSchedule :=
  if desk.allowlist = [] then
    (desk, .error ⟨400, "Velociraptor chưa cấu hình (cần set allowlist trước)"⟩)
  else
    match validateArtifact body.artifact desk.allowlist with
    | some e => (desk, .error e)
    | none =>
      if body.scope = .multi ∧ body.machineIds.getD [] = [] then
        (desk, .error ⟨422, "scope=multi yêu cầu machine_ids (ít nhất 1)"⟩)
      else
        let schedule : DfirSchedule :=
          { name := body.name
            artifact := body.artifact
            scope := body.scope
            machineIds := if body.machineIds.getD [] = [] then none else body.machineIds
            intervalSeconds := body.intervalSeconds
            enabled := true
            lastRunAt := none
            nextRunAt := out.now + body.intervalSeconds * 1000000
            lastStatus := none
            lastError := none
            requestedBy := admin }
        ({ desk with schedules := desk.schedules.insert out.newId schedule }, .ok schedule)

structure DfirScheduleUpdate where
  name : Option String
  intervalSeconds : Option ℤ
  enabled : Option Bool

def updateDfirSchedule (id : Uuid) (body : DfirScheduleUpdate) (desk : Desk) :
    Desk × Except HttpError DfirSchedule :=
  match desk.schedules.get id with
  | none => (desk, .error ⟨404, "Không tìm thấy schedule"⟩)
  | some schedule =>
    let schedule :=
      { schedule with
        name := body.name.getD schedule.name
        intervalSeconds := body.intervalSeconds.getD schedule.intervalSeconds
        enabled := body.enabled.getD schedule.enabled }
    ({ desk with schedules := desk.schedules.modify id fun _ => schedule }, .ok schedule)

def deleteDfirSchedule (id : Uuid) (desk : Desk) : Desk × Except HttpError Unit :=
  match desk.schedules.get id with
  | none => (desk, .error ⟨404, "Không tìm thấy schedule"⟩)
  | some _ => ({ desk with schedules := desk.schedules.erase id }, .ok ())

def DfirSchedule.targets (schedule : DfirSchedule) (desk : Desk) : HuntTargets :=
  if schedule.scope = .multi then
    .multi ((desk.linksOf (schedule.machineIds.getD [])).map VelociraptorLink.clientId)
  else .all

/-- The text of an exception that ends a schedule. -/
def HuntEnd.failure : HuntEnd → Option String
  | .done _ _ => none
  | .refused _ => some "409: Velociraptor không có client nào"
  | .raised e => some e.message

/-- `run_dfir_schedule_now`.  The allowlist is not looked at. -/
def runDfirScheduleNow (out : Outside) (admin id : Uuid) (desk : Desk) :
    Desk × Except HttpError (DfirHunt × ℕ) :=
  match desk.schedules.get id with
  | none => (desk, .error ⟨404, "Không tìm thấy schedule"⟩)
  | some schedule =>
    match buildVelociraptorClient out desk with
    | .error e => (desk, .error e)
    | .ok none => (desk, .error ⟨400, "Velociraptor chưa cấu hình"⟩)
    | .ok (some _) =>
      let hunt : DfirHunt :=
        ⟨none, schedule.artifact, schedule.scope, none, admin, "pending",
          "Trigger từ schedule '" ++ schedule.name ++ "' (manual run-now)", none⟩
      let (after, ended) := collectHunt out schedule.artifact (schedule.targets desk) desk
      match ended with
      | .done huntId clientCount =>
        let hunt := { hunt with huntId := huntId, status := "completed" }
        let schedule :=
          { schedule with
            lastRunAt := some out.now
            lastStatus := some "completed"
            nextRunAt := out.now + schedule.intervalSeconds * 1000000 }
        ({ after with
            hunts := after.hunts ++ [hunt]
            schedules := after.schedules.modify id fun _ => schedule }, .ok (hunt, clientCount))
      | ended =>
        let text := ended.failure.getD ""
        ({ after with
            hunts := after.hunts ++ [{ hunt with status := "error", error := some text }]
            schedules := after.schedules.modify id fun _ =>
              { schedule with lastStatus := some "error", lastError := some text } },
          .error ⟨502, "Schedule run-now lỗi: " ++ text⟩)

/-! ## The Top 10 -/

/-- An artifact of the Top 10, with its label. -/
structure Top10Spec where
  artifact : String
  label : String

def top10ArtifactsWindows : List Top10Spec :=
  [⟨"Windows.Forensics.Prefetch", "Prefetch — Top 10 binary được thực thi gần nhất"⟩,
    ⟨"Windows.Network.Netstat", "Netstat — Top 10 kết nối mạng / cổng đang mở"⟩,
    ⟨"Windows.System.Pslist", "Pslist — Top 10 tiến trình hệ thống"⟩]

def top10ArtifactsLinux : List Top10Spec :=
  [⟨"Linux.Sys.Pslist", "Pslist — Top 10 tiến trình hệ thống"⟩,
    ⟨"Linux.Network.NetstatEnriched", "Netstat — Top 10 kết nối mạng / cổng đang mở"⟩,
    ⟨"Linux.Sys.LastUserLogin", "Đăng nhập — Top 10 phiên đăng nhập gần nhất"⟩]

def top10ArtifactsDarwin : List Top10Spec :=
  [⟨"MacOS.Sys.Pslist", "Pslist — Top 10 tiến trình hệ thống"⟩,
    ⟨"MacOS.Network.Netstat", "Netstat — Top 10 kết nối mạng / cổng đang mở"⟩]

def top10ArtifactsFor (system : Option String) : List Top10Spec :=
  let s := (strip (system.getD "")).toLower
  if s = "linux" then top10ArtifactsLinux
  else if s ∈ ["darwin", "macos", "osx", "mac"] then top10ArtifactsDarwin
  else top10ArtifactsWindows

/-- What is answered for an artifact of the Top 10. -/
structure Top10Entry where
  artifact : String
  label : String
  status : String
  flowId : Option String
  error : Option String
  deriving DecidableEq

def findFlowByArtifact (flows : List ClientFlow) (artifact : String) : Option ClientFlow :=
  flows.find? fun flow => decide (artifact ∈ flow.artifacts)

/-- The loop over the artifacts.  An exception that is no `VelociraptorError` ends it. -/
def collectSpecs (out : Outside) (clientId : String) (allowlist : List String) (flows : List ClientFlow) :
    List Top10Spec → Desk → Desk × Except String (List Top10Entry)
  | [], desk => (desk, .ok [])
  | spec :: specs, desk =>
    let goOn (entry : Top10Entry) (desk : Desk) :=
      let (desk, entries) := collectSpecs out clientId allowlist flows specs desk
      (desk, entries.map fun entries => entry :: entries)
    if spec.artifact ∉ allowlist then
      goOn ⟨spec.artifact, spec.label, "not_allowed", none, none⟩ desk
    else
      match (findFlowByArtifact flows spec.artifact).filter fun flow => decide (flow.state = "FINISHED") with
      | some flow => goOn ⟨spec.artifact, spec.label, "reused", flow.flowId, none⟩ desk
      | none =>
        let (desk, _) := collectFrom out spec.artifact [clientId] desk
        match out.collect clientId spec.artifact with
        | .ok flow => goOn ⟨spec.artifact, spec.label, "collecting", some flow, none⟩ desk
        | .error (.velociraptor e) => goOn ⟨spec.artifact, spec.label, "error", none, some e⟩ desk
        | .error (.other e) => (desk, .error e)

/-- `collect_client_top10`, with `collect_missing_top10`. -/
def collectMissingTop10 (out : Outside) (clientId : String) (desk : Desk) :
    Desk × Except HttpError (List Top10Entry) :=
  match buildVelociraptorClient out desk with
  | .error e => (desk, .error e)
  | .ok none => (desk, .error ⟨400, "Chưa cấu hình Velociraptor"⟩)
  | .ok (some cfg) =>
    match out.opening with
    | some _ => (desk, .error ⟨500, "Internal Server Error"⟩)
    | none =>
      match out.flows clientId with
      | .error (.velociraptor e) => (desk, .error ⟨502, "Velociraptor API lỗi: " ++ e⟩)
      | .error (.other _) => (desk, .error ⟨500, "Internal Server Error"⟩)
      | .ok flows =>
        let (desk, entries) := collectSpecs out clientId (cfg.allowlist.getD []) flows
          (top10ArtifactsFor (out.system clientId)) desk
        (desk, entries.mapError fun _ => ⟨500, "Internal Server Error"⟩)

/-! ## Histories -/

inductive ArtifactRequest where
  | updateConfig (body : VelociraptorConfigUpdate)
  | createHunt (body : DfirHuntCreate)
  | createSchedule (body : DfirScheduleCreate)
  | updateSchedule (id : Uuid) (body : DfirScheduleUpdate)
  | deleteSchedule (id : Uuid)
  | runNow (id : Uuid)
  | collectTop10 (clientId : String)

/-- What happens next. -/
inductive Action where
  /-- A request of an administrator, with what it meets outside. -/
  | request (out : Outside) (admin : Uuid) (request : ArtifactRequest)
  /-- Machines come and go, and are linked to clients. -/
  | inventory (machines : List Uuid) (links : List VelociraptorLink)

/-- The desk after a request. -/
def Desk.serve (defaults : List String) (desk : Desk) : Action → Desk
  | .request out _ (.updateConfig body) => (updateVelociraptorConfig defaults out body desk).1
  | .request out admin (.createHunt body) => (createVelociraptorHunt out admin body desk).1
  | .request out admin (.createSchedule body) => (createDfirSchedule out admin body desk).1
  | .request _ _ (.updateSchedule id body) => (updateDfirSchedule id body desk).1
  | .request _ _ (.deleteSchedule id) => (deleteDfirSchedule id desk).1
  | .request out admin (.runNow id) => (runDfirScheduleNow out admin id desk).1
  | .request out _ (.collectTop10 clientId) => (collectMissingTop10 out clientId desk).1
  | .inventory machines links => { desk with machines := machines, links := links }

/-- The desk after a history. -/
def Desk.serveAll (defaults : List String) (desk : Desk) (actions : List Action) : Desk :=
  actions.foldl (Desk.serve defaults) desk

/-- The clients that a collection asks for. -/
def HuntTargets.reached (out : Outside) (targets : HuntTargets) : List String :=
  if out.opening.isSome then []
  else
    match targets with
    | .single clientId => [clientId]
    | .multi ids => ids
    | .all => (out.clients.toOption.map clientIds).getD []

/-- **A schedule that is started by hand** has an artifact of the allowlist, or collects from nobody. -/
def Action.Within (desk : Desk) : Action → Prop
  | .request out _ (.runNow id) => ∀ schedule cfg, desk.schedules.get id = some schedule →
      buildVelociraptorClient out desk = .ok (some cfg) →
        schedule.artifact ∈ desk.allowlist ∨ (schedule.targets desk).reached out = []
  | _ => True

/-- All actions of a history are so. -/
def AllWithin (defaults : List String) : Desk → List Action → Prop
  | _, [] => True
  | desk, action :: actions => action.Within desk ∧ AllWithin defaults (desk.serve defaults action) actions

/-! ## The calls of a request -/

section Calls

variable {out : Outside} {admin id : Uuid} {desk : Desk} {cfg : VelociraptorConfig}

theorem config_of_build (h : buildVelociraptorClient out desk = .ok (some cfg)) :
    desk.config = some cfg := by
  unfold buildVelociraptorClient at h
  cases hconfig : desk.config with
  | none => simp [hconfig] at h
  | some stored =>
    have hstored : ∀ {x : Option VelociraptorConfig}, x = none ∨ x = some stored →
        (Except.ok x : Except HttpError (Option VelociraptorConfig)) = .ok (some cfg) → stored = cfg := by
      rintro x (rfl | rfl) hx
      · cases hx
      · exact Option.some.inj (Except.ok.inj hx)
    rw [hconfig] at h
    dsimp only at h
    refine congrArg some ?_
    split_ifs at h
    · exact hstored (.inl rfl) h
    · repeat' split at h
      all_goals first
        | exact hstored (.inr rfl) h
        | exact hstored (.inl rfl) h
        | cases h

theorem allowlist_of_build (h : buildVelociraptorClient out desk = .ok (some cfg)) :
    desk.allowlist = cfg.allowlist.getD [] := by
  rw [Desk.allowlist, config_of_build h]
  rfl

/-- **The calls of a collection.** -/
theorem calls_collectHunt (out : Outside) (artifact : String) (targets : HuntTargets) (desk : Desk) :
    (collectHunt out artifact targets desk).1.calls = desk.calls ++
      (targets.reached out).map fun c => ⟨c, artifact, desk.allowlist⟩ := by
  unfold collectHunt HuntTargets.reached
  cases out.opening with
  | some e => simp
  | none =>
    cases targets with
    | single clientId =>
      dsimp only
      cases out.collect clientId artifact <;> rfl
    | multi ids => rfl
    | all =>
      cases out.clients with
      | error e => simp [Except.toOption]
      | ok clients =>
        by_cases hnone : clientIds clients = []
        · simp [hnone, Except.toOption]
        · simp [hnone, Except.toOption, collectFrom]

/-- The calls of some requests. -/
def Calls (desk after : Desk) (new : List CollectCall) : Prop := after.calls = desk.calls ++ new

theorem Calls.none {after : Desk} (h : after.calls = desk.calls) : Calls desk after [] := by
  rw [Calls, List.append_nil, h]

theorem calls_createVelociraptorHunt (body : DfirHuntCreate) :
    ∃ new, Calls desk (createVelociraptorHunt out admin body desk).1 new ∧ ∀ c ∈ new, c.Allowed := by
  have hnone : ∃ new, Calls desk desk new ∧ ∀ c ∈ new, c.Allowed :=
    ⟨[], .none rfl, List.forall_mem_nil _⟩
  unfold createVelociraptorHunt
  split
  · exact hnone
  · exact hnone
  · rename_i cfg hbuild
    split
    · exact hnone
    · rename_i hvalid
      have hmem : body.artifact ∈ desk.allowlist := by
        rw [allowlist_of_build hbuild]
        by_contra hnot
        rw [validateArtifact, if_neg hnot] at hvalid
        cases hvalid
      split
      · exact hnone
      · rename_i targets _
        refine ⟨(targets.reached out).map fun c => ⟨c, body.artifact, desk.allowlist⟩, ?_, ?_⟩
        · have hcalls := calls_collectHunt out body.artifact targets desk
          dsimp only
          split <;> exact hcalls
        · intro call hcall
          obtain ⟨c, -, rfl⟩ := List.mem_map.mp hcall
          exact hmem

theorem calls_collectSpecs (clientId : String) (flows : List ClientFlow) (specs : List Top10Spec)
    (desk : Desk) : ∃ new, Calls desk
      (collectSpecs out clientId desk.allowlist flows specs desk).1 new ∧ ∀ c ∈ new, c.Allowed := by
  induction specs generalizing desk with
  | nil => exact ⟨[], .none rfl, List.forall_mem_nil _⟩
  | cons spec specs ih =>
    by_cases hmem : spec.artifact ∈ desk.allowlist
    · rw [collectSpecs, if_neg (not_not.mpr hmem)]
      split
      · exact ih desk
      · have hallowed : ∀ c ∈ [(⟨clientId, spec.artifact, desk.allowlist⟩ : CollectCall)], c.Allowed :=
          List.forall_mem_singleton.mpr hmem
        obtain ⟨new, hcalls, hnew⟩ := ih (collectFrom out spec.artifact [clientId] desk).1
        have hrest : ∃ new, Calls desk (collectSpecs out clientId desk.allowlist flows specs
            (collectFrom out spec.artifact [clientId] desk).1).1 new ∧ ∀ c ∈ new, c.Allowed := by
          refine ⟨_ :: new, ?_, List.forall_mem_append.mpr ⟨hallowed, hnew⟩⟩
          rw [Calls] at hcalls ⊢
          exact hcalls.trans (List.append_assoc _ _ _)
        dsimp only
        split
        · exact hrest
        · exact hrest
        · exact ⟨_, rfl, hallowed⟩
    · rw [collectSpecs, if_pos hmem]
      exact ih desk

theorem calls_collectMissingTop10 (clientId : String) :
    ∃ new, Calls desk (collectMissingTop10 out clientId desk).1 new ∧ ∀ c ∈ new, c.Allowed := by
  have hnone : ∃ new, Calls desk desk new ∧ ∀ c ∈ new, c.Allowed :=
    ⟨[], .none rfl, List.forall_mem_nil _⟩
  unfold collectMissingTop10
  split
  · exact hnone
  · exact hnone
  · rename_i cfg hbuild
    split
    · exact hnone
    · split
      · exact hnone
      · exact hnone
      · rw [← allowlist_of_build hbuild]
        exact calls_collectSpecs clientId _ _ desk

theorem calls_runDfirScheduleNow : ∃ new, Calls desk (runDfirScheduleNow out admin id desk).1 new ∧
      ((∀ c ∈ new, c.Allowed) ↔ (Action.request out admin (.runNow id)).Within desk) := by
  unfold runDfirScheduleNow
  cases hschedule : desk.schedules.get id with
  | none =>
    refine ⟨[], .none rfl, iff_of_true (List.forall_mem_nil _) fun schedule cfg h => ?_⟩
    rw [hschedule] at h
    cases h
  | some schedule =>
    dsimp only
    split
    · rename_i hbuild
      refine ⟨[], .none rfl, iff_of_true (List.forall_mem_nil _) fun _ cfg _ h => ?_⟩
      rw [hbuild] at h
      cases h
    · rename_i hbuild
      refine ⟨[], .none rfl, iff_of_true (List.forall_mem_nil _) fun _ cfg _ h => ?_⟩
      rw [hbuild] at h
      cases h
    · rename_i cfg hbuild
      refine ⟨((schedule.targets desk).reached out).map fun c => ⟨c, schedule.artifact, desk.allowlist⟩,
        ?_, ?_⟩
      · have hcalls := calls_collectHunt out schedule.artifact (schedule.targets desk) desk
        split <;> exact hcalls
      · constructor
        · intro hall other _ hother _
          obtain rfl := Option.some.inj (hschedule.symm.trans hother)
          cases hreached : (schedule.targets desk).reached out with
          | nil => exact .inr rfl
          | cons c clients =>
            exact .inl (hall _ (List.mem_map.mpr ⟨c, by rw [hreached]; exact List.mem_cons_self, rfl⟩))
        · intro hwithin call hcall
          obtain ⟨c, hc, rfl⟩ := List.mem_map.mp hcall
          rcases hwithin schedule cfg hschedule hbuild with hmem | hnobody
          · exact hmem
          · rw [hnobody] at hc
            exact absurd hc List.not_mem_nil

/-- **One action**: what it collects is allowed exactly when it is within the allowlist. -/
theorem calls_serve (defaults : List String) (desk : Desk) (action : Action) :
    ∃ new, Calls desk (desk.serve defaults action) new ∧
      ((∀ c ∈ new, c.Allowed) ↔ action.Within desk) := by
  have hnone : ∀ {after : Desk}, after.calls = desk.calls →
      ∃ new, Calls desk after new ∧ ((∀ c ∈ new, c.Allowed) ↔ True) :=
    fun h => ⟨[], .none h, iff_of_true (List.forall_mem_nil _) trivial⟩
  have hallowed : ∀ {after : Desk}, (∃ new, Calls desk after new ∧ ∀ c ∈ new, c.Allowed) →
      ∃ new, Calls desk after new ∧ ((∀ c ∈ new, c.Allowed) ↔ True) :=
    fun ⟨new, hcalls, hnew⟩ => ⟨new, hcalls, iff_of_true hnew trivial⟩
  cases action with
  | inventory machines links => exact hnone rfl
  | request out admin request =>
    cases request with
    | updateConfig body =>
      refine hnone ?_
      change (updateVelociraptorConfig defaults out body desk).1.calls = desk.calls
      unfold updateVelociraptorConfig
      dsimp only
      split <;> rfl
    | createHunt body => exact hallowed (calls_createVelociraptorHunt body)
    | createSchedule body =>
      refine hnone ?_
      change (createDfirSchedule out admin body desk).1.calls = desk.calls
      unfold createDfirSchedule
      split
      · rfl
      · split
        · rfl
        · split <;> rfl
    | updateSchedule id body =>
      refine hnone ?_
      change (updateDfirSchedule id body desk).1.calls = desk.calls
      unfold updateDfirSchedule
      split <;> rfl
    | deleteSchedule id =>
      refine hnone ?_
      change (deleteDfirSchedule id desk).1.calls = desk.calls
      unfold deleteDfirSchedule
      split <;> rfl
    | runNow id => exact calls_runDfirScheduleNow
    | collectTop10 clientId => exact hallowed (calls_collectMissingTop10 clientId)

end Calls

/-- **Whatever is collected is on the allowlist** at the time, in a history, exactly when every schedule that
is started by hand is within it. -/
theorem allowed_iff_within (defaults : List String) (desk : Desk) (actions : List Action) :
    (∀ c ∈ (desk.serveAll defaults actions).calls, c.Allowed) ↔
      (∀ c ∈ desk.calls, c.Allowed) ∧ AllWithin defaults desk actions := by
  induction actions generalizing desk with
  | nil => exact (and_iff_left trivial).symm
  | cons action actions ih =>
    obtain ⟨new, hcalls, hnew⟩ := calls_serve defaults desk action
    calc (∀ c ∈ ((desk.serve defaults action).serveAll defaults actions).calls, c.Allowed)
        ↔ (∀ c ∈ (desk.serve defaults action).calls, c.Allowed) ∧
            AllWithin defaults (desk.serve defaults action) actions := ih _
      _ ↔ ((∀ c ∈ desk.calls, c.Allowed) ∧ ∀ c ∈ new, c.Allowed) ∧
            AllWithin defaults (desk.serve defaults action) actions := by
          rw [hcalls, List.forall_mem_append]
      _ ↔ (∀ c ∈ desk.calls, c.Allowed) ∧ AllWithin defaults desk (action :: actions) := by
          rw [hnew, and_assoc]
          rfl

/-- A server that answers everything, and has one client. -/
def exampleOutside : Outside where
  now := 0
  newId := 7
  encrypt := id
  decrypt := .ok
  parseYaml := fun _ => .ok ()
  inspectCert := fun _ => .ok ()
  parseBasic := fun _ => .ok ()
  opening := none
  clients := .ok [some "C.1"]
  collect := fun _ _ => .ok "F.1"
  system := fun _ => none
  flows := fun _ => .ok []

/-- The server is configured, with one artifact on the list. -/
def exampleDesk : Desk where
  config := some ⟨true, some "https://velociraptor", some "token", none, none, some ["Generic.Client.Info"]⟩
  machines := []
  links := []
  schedules := Table.empty
  hunts := []
  calls := []

/-- A schedule for the artifact, which is then taken off the list, and the schedule is started. -/
def exampleHistory : List Action :=
  [.request exampleOutside 0 (.createSchedule ⟨"Hằng giờ", "Generic.Client.Info", .all, none, 3600⟩),
    .request exampleOutside 0 (.updateConfig ⟨none, none, none, none, none, none, some ["Linux.Sys.Pslist"]⟩),
    .request exampleOutside 0 (.runNow 7)]

/-- **A schedule whose artifact has left the list** collects it. -/
theorem run_off_the_list : ¬ ∀ (defaults : List String) (desk : Desk) (actions : List Action),
    desk.calls = [] → ∀ c ∈ (desk.serveAll defaults actions).calls, c.Allowed := by
  intro h
  have hcalls : (exampleDesk.serveAll [] exampleHistory).calls =
      [⟨"C.1", "Generic.Client.Info", ["Linux.Sys.Pslist"]⟩] := by decide +kernel
  have hallowed := h [] exampleDesk exampleHistory rfl
  rw [hcalls] at hallowed
  exact absurd (hallowed _ List.mem_cons_self) (by decide)

end AssetInventory.Velociraptor

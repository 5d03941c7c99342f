import AssetInventory.Lib.Sql
import AssetInventory.Dfir.Progress
import AssetInventory.Dfir.Collect

/-!
# The row queries, and the insert

The `WHERE` clauses of the worker's three row queries, of the claim's count, and of the polling
lease, each as a condition with SQL's three truth values on a row.

* `holds_reconcileWhere`, `holds_claimWhere`, `holds_localWhere`, `holds_leaseWhere`: the rows each
  keeps.  `holds_localWhere` keeps no row whose orchestrator is `NULL`.
* `createInvestigation`: the insert, and `createInvestigation_cases`: every row is inserted pending,
  with nothing dispatched, polled or answered.
-/

namespace AssetInventory

open PyJson PyTime Orm DfirInvestigation

/-! ## The queries -/

/-- `external_orchestrator = 'deepagent' AND status = 'analyzing'`: the rows to reconcile, and the
busy slots the claim counts. -/
def reconcileWhere (r : DfirInvestigation) : Sql.Truth :=
  Sql.and (Sql.eq r.externalOrchestrator .deepagent) (Sql.eq (some r.status) .analyzing)

/-- `external_orchestrator = 'deepagent' AND status = 'pending'`. -/
def claimWhere (r : DfirInvestigation) : Sql.Truth :=
  Sql.and (Sql.eq r.externalOrchestrator .deepagent) (Sql.eq (some r.status) .pending)

/-- The states the worker acts on. -/
def activeStatuses : List Status := [.pending, .running, .collecting, .analyzing]

/-- `status IN (...) AND external_orchestrator <> 'deepagent'`. -/
def localWhere (r : DfirInvestigation) : Sql.Truth :=
  Sql.and (Sql.isIn (some r.status) activeStatuses) (Sql.ne r.externalOrchestrator .deepagent)

/-- The rows a polling orchestrator may take over: `status = 'analyzing' AND
external_orchestrator = 'hermes' AND (external_polled_at IS NULL OR external_polled_at < ...)`. -/
def leaseWhere (reclaimBefore : Time) (r : DfirInvestigation) : Sql.Truth :=
  Sql.and (Sql.and (Sql.eq (some r.status) .analyzing) (Sql.eq r.externalOrchestrator .hermes))
    (Sql.or (Sql.isNull r.externalPolledAt) (Sql.lt r.externalPolledAt reclaimBefore))

/-- The limit of the worker's query for the rows DeepAgent does not own. -/
def localLimit : ℕ := 5

theorem holds_reconcileWhere (r : DfirInvestigation) : Sql.holds (reconcileWhere r) = true ↔
      r.externalOrchestrator = some .deepagent ∧ r.status = .analyzing := by
  rw [reconcileWhere, Sql.holds_and, Bool.and_eq_true, Sql.holds_eq, Sql.holds_eq,
    Option.some.injEq]

theorem holds_claimWhere (r : DfirInvestigation) : Sql.holds (claimWhere r) = true ↔
      r.externalOrchestrator = some .deepagent ∧ r.status = .pending := by
  rw [claimWhere, Sql.holds_and, Bool.and_eq_true, Sql.holds_eq, Sql.holds_eq, Option.some.injEq]

theorem mem_activeStatuses (s : Status) : s ∈ activeStatuses ↔ s.isTerminal = false := by
  cases s <;> simp [activeStatuses, Status.isTerminal]

/-- **The local query.**  It keeps the active rows whose orchestrator is known and is not
DeepAgent. -/
theorem holds_localWhere (r : DfirInvestigation) : Sql.holds (localWhere r) = true ↔
      r.status.isTerminal = false ∧ r.externalOrchestrator = some .hermes := by
  rw [localWhere, Sql.holds_and, Bool.and_eq_true, Sql.holds_isIn, Sql.holds_ne]
  constructor
  · rintro ⟨⟨s, hs, hmem⟩, o, ho, hne⟩
    refine ⟨?_, ?_⟩
    · rw [Option.some.inj hs]
      exact (mem_activeStatuses s).mp hmem
    · cases o with
      | hermes => exact ho
      | deepagent => exact absurd rfl hne
  · rintro ⟨hs, ho⟩
    exact ⟨⟨r.status, rfl, (mem_activeStatuses _).mpr hs⟩, .hermes, ho, by decide⟩

theorem holds_leaseWhere (t : Time) (r : DfirInvestigation) : Sql.holds (leaseWhere t r) = true ↔
      (r.status = .analyzing ∧ r.externalOrchestrator = some .hermes) ∧
        ∀ p, r.externalPolledAt = some p → p < t := by
  rw [leaseWhere, Sql.holds_and, Sql.holds_and, Sql.holds_or, Bool.and_eq_true, Bool.and_eq_true,
    Bool.or_eq_true, Sql.holds_eq, Sql.holds_eq, Sql.holds_isNull, Sql.holds_lt, Option.some.injEq]
  refine and_congr_right fun _ => ?_
  cases r.externalPolledAt <;> simp

/-! ## The insert -/

/-- The arguments of a request for an investigation. -/
structure CreateRequest where
  machineId : String
  artifacts : Option (List String)
  customInstructions : Option String
  requestedBy : String
  useExternalOrchestrator : Option Bool

/-- What the request meets: whether the LLM is enabled, the client id of the machine's Velociraptor
link, and the orchestrator of the LLM configuration. -/
structure CreateEnv where
  llmEnabled : Bool
  clientId : Option String
  configuredOrchestrator : Option String

def Orchestrator.ofName? : String → Option Orchestrator
  | "hermes" => some .hermes
  | "deepagent" => some .deepagent
  | _ => none

/-- `ext_orch`: the override of the request, or the configuration. -/
def chosenOrchestrator (cfg : Settings) (env : CreateEnv) (req : CreateRequest) : Option String :=
  let configured :=
    if truthy env.configuredOrchestrator then env.configuredOrchestrator
    else some cfg.llmExternalOrchestrator
  match req.useExternalOrchestrator with
  | some true => if truthy configured then configured else some "hermes"
  | some false => none
  | none => if truthy configured then configured else none

/-- `ext_orch` as the two supported names; anything else is refused. -/
def supportedOrchestrator : Option String → Except PyExc (Option Orchestrator)
  | none => .ok none
  | some name =>
    match Orchestrator.ofName? name with
    | some o => .ok (some o)
    | none => .error (llmError "external_orchestrator chỉ hỗ trợ hermes hoặc deepagent")

/-- The row as it is built. -/
def newInvestigation (cfg : Settings) (now : Time) (clientId : Option String)
    (req : CreateRequest) (orchestrator : Option Orchestrator) : DfirInvestigation where
  machineId := req.machineId
  velociraptorClientId := clientId
  flowId := none
  artifacts := if req.artifacts.getD [] = [] then cfg.llmDefaultArtifacts else req.artifacts.getD []
  status := .pending
  llmProvider := none
  llmModel := none
  inputTokens := none
  outputTokens := none
  estimatedCostUsd := none
  reportMarkdown := none
  severity := none
  findingsCount := none
  rawArtifacts := none
  customInstructions := req.customInstructions
  externalOrchestrator := orchestrator
  externalJobId := none
  externalPolledAt := none
  hermesStatus := none
  hermesResponse := none
  findings := none
  iocs := none
  callbackReceivedAt := none
  externalCallbackIdempotencyKey := none
  error := none
  requestedBy := req.requestedBy
  startedAt := none
  completedAt := none
  createdAt := now

/-- `create_investigation`: the row it inserts. -/
def createInvestigation (cfg : Settings) (now : Time) (env : CreateEnv) (req : CreateRequest) :
    Except PyExc DfirInvestigation :=
  if env.llmEnabled = false then
    .error (llmError "LLM chưa được cấu hình hoặc chưa bật.")
  else if truthy env.clientId = false then
    .error (llmError ("Máy chưa được link với Velociraptor (chưa có client_id). " ++
      "Chạy POST /api/admin/velociraptor/sync hoặc đợi sync 5 phút/lần."))
  else
    (supportedOrchestrator (chosenOrchestrator cfg env req)).map
      (newInvestigation cfg now env.clientId req)

/-- A row as inserted. -/
structure Fresh (now : Time) (r : DfirInvestigation) : Prop where
  status : r.status = .pending
  job : r.externalJobId = none
  polled : r.externalPolledAt = none
  response : r.hermesResponse = none
  createdAt : r.createdAt = now

theorem fresh_of_createInvestigation {cfg : Settings} {now : Time} {env : CreateEnv}
    {req : CreateRequest} {r : DfirInvestigation}
    (h : createInvestigation cfg now env req = .ok r) : Fresh now r := by
  unfold createInvestigation at h
  split at h
  · cases h
  · split at h
    · cases h
    · cases ho : supportedOrchestrator (chosenOrchestrator cfg env req) with
      | error e =>
        rw [ho] at h
        cases h
      | ok o =>
        rw [ho] at h
        rw [← Except.ok.inj h]
        exact ⟨rfl, rfl, rfl, rfl, rfl⟩

end AssetInventory

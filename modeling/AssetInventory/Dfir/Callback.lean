import AssetInventory.Dfir.Model

/-!
# Result callbacks and stop requests

* `submitExternalResult`: an external orchestrator delivers the result of an investigation.  The
  checks come in the order of the source: orchestrator, key, binding, *termination*, job id, status.
  The termination check answers before the job id is compared.
* `Snapshot`, `invToDict`: what the caller gets back.
* `stopInvestigation`: the administrator's stop request, which reads the row without a lock.

`submitExternalResult_cases` is the case analysis every statement about callbacks goes through.
-/

namespace AssetInventory

open PyJson PyTime Orm DfirInvestigation

/-- The arguments of a result callback. -/
structure ResultCallback where
  reportMarkdown : Option String
  severity : String
  findingsCount : Option ℤ
  findings : Option (List Json)
  iocs : Option (List Json)
  llmProvider : Option String
  llmModel : Option String
  inputTokens : Option ℤ
  outputTokens : Option ℤ
  estimatedCostUsd : Option ℚ
  error : Option String
  externalJobId : Option String
  rawResponse : Option (List (String × Json))
  idempotencyKey : Option String
  deriving DecidableEq

/-- `_inv_to_dict`. -/
structure Snapshot where
  id : InvId
  status : Status
  severity : Option String
  findingsCount : Option ℤ
  findings : Option (List Json)
  iocs : Option (List Json)
  reportMarkdown : Option String
  llmProvider : Option String
  llmModel : Option String
  inputTokens : Option ℤ
  outputTokens : Option ℤ
  estimatedCostUsd : Option ℚ
  externalOrchestrator : Option Orchestrator
  externalJobId : Option String
  externalPolledAt : Option Time
  hermesStatus : Option String
  callbackReceivedAt : Option Time
  completedAt : Option Time
  machineId : String
  error : Option String
  deriving DecidableEq

def invToDict (id : InvId) (inv : DfirInvestigation) : Snapshot where
  id := id
  status := inv.status
  severity := inv.severity
  findingsCount := inv.findingsCount
  findings := inv.findings
  iocs := inv.iocs
  reportMarkdown := inv.reportMarkdown
  llmProvider := inv.llmProvider
  llmModel := inv.llmModel
  inputTokens := inv.inputTokens
  outputTokens := inv.outputTokens
  estimatedCostUsd := inv.estimatedCostUsd
  externalOrchestrator := inv.externalOrchestrator
  externalJobId := inv.externalJobId
  externalPolledAt := inv.externalPolledAt
  hermesStatus := inv.hermesStatus
  callbackReceivedAt := inv.callbackReceivedAt
  completedAt := inv.completedAt
  machineId := inv.machineId
  error := inv.error

/-- The exceptions of a callback. -/
inductive CallbackError where
  /-- `ExternalInvestigationNotFound`. -/
  | notFound (message : String)
  /-- `ExternalCallbackConflict`. -/
  | conflict (message : String)
  deriving DecidableEq

/-- The severities a report may have. -/
def severities : List String := ["critical", "high", "medium", "low", "info"]

/-- `(severity or "info").lower()`, or `"info"` if that is no severity. -/
def normalizeSeverity (severity : String) : String :=
  let sev := if severity = "" then "info" else severity.toLower
  if sev ∈ severities then sev else "info"

/-- `external_job_id or inv.external_job_id`, as the two assignments leave it. -/
def boundJobId (call : ResultCallback) (inv : DfirInvestigation) : Option String :=
  if truthy call.externalJobId then call.externalJobId else inv.externalJobId

/-- The assignments of an error callback. -/
def recordError (now : Time) (call : ResultCallback) (inv : DfirInvestigation) :
    DfirInvestigation :=
  { inv with
    callbackReceivedAt := some now
    status := .failed
    error := some (truncate 2000
      ("External (" ++ (inv.externalOrchestrator.map Orchestrator.name).getD "None" ++ "): " ++
        call.error.getD "None"))
    completedAt := some now
    hermesStatus := some "failed"
    hermesResponse := call.rawResponse.map .obj
    externalJobId := boundJobId call inv
    externalCallbackIdempotencyKey := call.idempotencyKey }

/-- The assignments of a successful callback. -/
def recordResult (now : Time) (call : ResultCallback) (inv : DfirInvestigation) :
    DfirInvestigation :=
  { inv with
    callbackReceivedAt := some now
    severity := some (normalizeSeverity call.severity)
    findings := some (call.findings.getD [])
    iocs := some (call.iocs.getD [])
    findingsCount := some (call.findingsCount.getD (call.findings.getD []).length)
    reportMarkdown := call.reportMarkdown
    llmProvider :=
      if truthy call.llmProvider then call.llmProvider
      else inv.externalOrchestrator.map Orchestrator.name
    llmModel := call.llmModel
    inputTokens := call.inputTokens
    outputTokens := call.outputTokens
    estimatedCostUsd := call.estimatedCostUsd
    status := .completed
    completedAt := some now
    hermesStatus := some "completed"
    hermesResponse := call.rawResponse.map .obj
    externalJobId := boundJobId call inv
    externalCallbackIdempotencyKey := call.idempotencyKey }

/-- The assignments of an accepted callback: an error callback records nothing but the error. -/
def record (now : Time) (call : ResultCallback) (inv : DfirInvestigation) : DfirInvestigation :=
  if truthy call.error then recordError now call inv else recordResult now call inv

/-- The tokens an accepted callback adds to the daily counter, if it touches the counter. -/
def spentTokens (call : ResultCallback) : Option ℤ :=
  if truthy call.error then none
  else
    let spent := call.inputTokens.getD 0 + call.outputTokens.getD 0
    if 0 < spent then some spent else none

/-- What a callback does when it does not raise. -/
inductive CallbackEffect where
  /-- The investigation has ended with this key: its state is returned, nothing is written. -/
  | replayed (row : DfirInvestigation)
  /-- The result is recorded. -/
  | recorded (row : DfirInvestigation) (spent : Option ℤ)
  deriving DecidableEq

/-- The row after a callback. -/
def CallbackEffect.row : CallbackEffect → DfirInvestigation
  | .replayed row => row
  | .recorded row _ => row

/-- The tokens a callback adds to the daily counter. -/
def CallbackEffect.spent : CallbackEffect → Option ℤ
  | .replayed _ => none
  | .recorded _ spent => spent

/-- `submit_external_result` on the row it has locked, if there is one. -/
def submitExternalResult (id : InvId) (now : Time) (call : ResultCallback) :
    Option DfirInvestigation → Except CallbackError CallbackEffect
  | none => .error (.notFound ("Investigation " ++ id ++ " không tồn tại"))
  | some inv =>
    if inv.externalOrchestrator = none then
      .error (.conflict ("Investigation " ++ id ++ " không dùng external orchestrator " ++
        "(external_orchestrator=None)"))
    else if truthy call.idempotencyKey = false then
      .error (.conflict "Thiếu idempotency key cho external callback")
    else if inv.externalOrchestrator = some .deepagent ∧ truthy inv.externalJobId = false then
      .error (.conflict ("Investigation " ++ id ++ " chưa được bind với DeepAgent job"))
    else if inv.status.isTerminal then
      if truthy inv.externalCallbackIdempotencyKey = false ∨
          call.idempotencyKey ≠ inv.externalCallbackIdempotencyKey then
        .error (.conflict ("Investigation " ++ id ++
          " đã nhận callback với idempotency key khác"))
      else .ok (.replayed inv)
    else if truthy inv.externalJobId ∧ call.externalJobId ≠ inv.externalJobId then
      .error (.conflict ("external_job_id không khớp với job đã dispatch cho investigation " ++
        id))
    else if inv.status ≠ .analyzing then
      .error (.conflict ("Investigation " ++ id ++ " chưa sẵn sàng nhận callback (status=" ++
        inv.status.name ++ ")"))
    else .ok (.recorded (record now call inv) (spentTokens call))

/-! ## What a callback does -/

theorem status_record_isTerminal (now : Time) (call : ResultCallback) (inv : DfirInvestigation) :
    (record now call inv).status.isTerminal = true := by
  unfold record
  split
  · rfl
  · rfl

theorem kept_record (now : Time) (call : ResultCallback) (inv : DfirInvestigation) :
    Kept inv (record now call inv) := by
  unfold record
  split
  · exact ⟨rfl, rfl, rfl, rfl⟩
  · exact ⟨rfl, rfl, rfl, rfl⟩

@[simp] theorem key_record (now : Time) (call : ResultCallback) (inv : DfirInvestigation) :
    (record now call inv).externalCallbackIdempotencyKey = call.idempotencyKey := by
  unfold record
  split
  · rfl
  · rfl

@[simp] theorem polled_record (now : Time) (call : ResultCallback) (inv : DfirInvestigation) :
    (record now call inv).externalPolledAt = inv.externalPolledAt := by
  unfold record
  split
  · rfl
  · rfl

@[simp] theorem jobId_record (now : Time) (call : ResultCallback) (inv : DfirInvestigation) :
    (record now call inv).externalJobId = boundJobId call inv := by
  unfold record
  split
  · rfl
  · rfl

/-- **The cases of a callback.**  It is replayed exactly on an ended row with the same key, and
recorded only on an analyzing row whose job id, if bound, it carries. -/
theorem submitExternalResult_cases {id : InvId} {now : Time} {call : ResultCallback}
    {inv : DfirInvestigation} {e : CallbackEffect}
    (h : submitExternalResult id now call (some inv) = .ok e) :
    inv.externalOrchestrator ≠ none ∧ truthy call.idempotencyKey = true ∧
      (inv.status.isTerminal = true ∧ e = .replayed inv ∧
          call.idempotencyKey = inv.externalCallbackIdempotencyKey ∨
        inv.status = .analyzing ∧ e = .recorded (record now call inv) (spentTokens call) ∧
          (truthy inv.externalJobId = true → call.externalJobId = inv.externalJobId)) := by
  unfold submitExternalResult at h
  dsimp only at h
  split at h
  · cases h
  · rename_i horch
    split at h
    · cases h
    · rename_i hkey
      split at h
      · cases h
      · split at h
        · rename_i hterm
          split at h
          · cases h
          · rename_i hsame
            refine ⟨horch, by simpa using hkey, Or.inl ⟨hterm, ?_, ?_⟩⟩
            · exact (Except.ok.inj h).symm
            · by_contra hne
              exact hsame (Or.inr hne)
        · split at h
          · cases h
          · rename_i hjob
            split at h
            · cases h
            · rename_i hana
              refine ⟨horch, by simpa using hkey, Or.inr ⟨not_not.mp hana, ?_, ?_⟩⟩
              · exact (Except.ok.inj h).symm
              · intro hbound
                by_contra hne
                exact hjob ⟨hbound, hne⟩

theorem CallbackEffect.row_isTerminal {id : InvId} {now : Time} {call : ResultCallback}
    {inv : DfirInvestigation} {e : CallbackEffect}
    (h : submitExternalResult id now call (some inv) = .ok e) : e.row.status.isTerminal = true := by
  obtain ⟨-, -, ⟨hterm, rfl, -⟩ | ⟨-, rfl, -⟩⟩ := submitExternalResult_cases h
  · exact hterm
  · exact status_record_isTerminal now call inv

/-! ## The stop request -/

/-- The HTTP error of a route. -/
structure HttpError where
  statusCode : ℕ
  detail : String
  deriving DecidableEq

/-- `stop_investigation` on the row it has read. -/
def stopInvestigation (now : Time) : Option DfirInvestigation → Except HttpError DfirInvestigation
  | none => .error ⟨404, "Investigation không tồn tại"⟩
  | some inv =>
    if inv.status.isTerminal then
      .error ⟨409, "Investigation không ở trạng thái dừng được (status=" ++ inv.status.name ++ ")"⟩
    else
      .ok { inv with
        status := .failed
        error := some "Dừng bởi người dùng"
        completedAt := some now }

theorem stopInvestigation_cases {now : Time} {inv r : DfirInvestigation}
    (h : stopInvestigation now (some inv) = .ok r) :
    inv.status.isTerminal = false ∧
      r = { inv with
        status := .failed
        error := some "Dừng bởi người dùng"
        completedAt := some now } := by
  unfold stopInvestigation at h
  dsimp only at h
  split at h
  · cases h
  · rename_i hterm
    exact ⟨by simpa using hterm, (Except.ok.inj h).symm⟩

end AssetInventory

import AssetInventory.Lib.Orm
import AssetInventory.Lib.PyJson
import AssetInventory.Lib.PyTime

/-!
# The investigation row

`DfirInvestigation` is a row of `dfir_investigations`, column by column, and `Status` is the state
machine `pending → running → collecting → analyzing → completed (| failed)` of its `status` column.

* `DfirInvestigation.writeBack`: what an `UPDATE` of a changed object leaves in the table.  Only the
  columns whose value changed since the load are written, by primary key.
* `Kept`: the columns that no operation after the insert assigns, so that every copy of a row agrees
  with it on them.
* `Settings`, `PyExc`: the configuration and the exceptions the service reads.

The flows of `raw_artifacts = {"flows": [...]}` are a list of `Flow`.  The dictionary carries nothing
else, and a `NULL` column is `none`.
-/

namespace AssetInventory

open PyJson PyTime Orm

/-- The key of an investigation. -/
abbrev InvId := String

/-- The states of an investigation. -/
inductive Status where
  | pending | running | collecting | analyzing | completed | failed
  deriving DecidableEq, Repr

/-- The value of the `status` column. -/
def Status.name : Status → String
  | .pending => "pending"
  | .running => "running"
  | .collecting => "collecting"
  | .analyzing => "analyzing"
  | .completed => "completed"
  | .failed => "failed"

/-- The two states an investigation ends in. -/
def Status.isTerminal : Status → Bool
  | .completed | .failed => true
  | _ => false

/-- The external orchestrators. -/
inductive Orchestrator where
  | hermes | deepagent
  deriving DecidableEq, Repr

/-- The value of the `external_orchestrator` column. -/
def Orchestrator.name : Orchestrator → String
  | .hermes => "hermes"
  | .deepagent => "deepagent"

/-- An exception as `type(e).__name__` and `str(e)`. -/
structure PyExc where
  typeName : String
  message : String
  deriving DecidableEq, Repr

/-- `f"{type(e).__name__}: {e}"`. -/
def PyExc.render (e : PyExc) : String := e.typeName ++ ": " ++ e.message

/-- `f"{type(e).__name__}: {e}"` of `LlmError(message)`. -/
def llmError (message : String) : PyExc := ⟨"LlmError", message⟩

/-- The exception of `x.get(...)` where `x` is not a `dict`. -/
def attributeError (x : Json) : PyExc :=
  ⟨"AttributeError", "'" ++ x.typeName ++ "' object has no attribute 'get'"⟩

/-- The truth value of an optional text: `None` and `""` are false. -/
def truthy : Option String → Bool
  | none => false
  | some s => decide (s ≠ "")

@[simp] theorem truthy_none : truthy none = false := rfl

theorem truthy_eq_true {o : Option String} : truthy o = true ↔ ∃ s, o = some s ∧ s ≠ "" := by
  cases o <;> simp [truthy]

/-- A flow of `raw_artifacts["flows"]`: one artifact collected by one Velociraptor flow. -/
structure Flow where
  artifact : String
  flowId : Option String
  error : Option String
  results : Option Json
  resultsError : Option String
  resultsCached : Bool
  deriving DecidableEq

/-- A row of `dfir_investigations`. -/
structure DfirInvestigation where
  machineId : String
  velociraptorClientId : Option String
  flowId : Option String
  artifacts : List String
  status : Status
  llmProvider : Option String
  llmModel : Option String
  inputTokens : Option ℤ
  outputTokens : Option ℤ
  estimatedCostUsd : Option ℚ
  reportMarkdown : Option String
  severity : Option String
  findingsCount : Option ℤ
  rawArtifacts : Option (List Flow)
  customInstructions : Option String
  externalOrchestrator : Option Orchestrator
  externalJobId : Option String
  externalPolledAt : Option Time
  hermesStatus : Option String
  hermesResponse : Option Json
  findings : Option (List Json)
  iocs : Option (List Json)
  callbackReceivedAt : Option Time
  externalCallbackIdempotencyKey : Option String
  error : Option String
  requestedBy : String
  startedAt : Option Time
  completedAt : Option Time
  createdAt : Time
  deriving DecidableEq

namespace DfirInvestigation

/-- The stored row after an `UPDATE` of the columns in which `cur` differs from `base`. -/
def writeBack (base cur stored : DfirInvestigation) : DfirInvestigation where
  machineId := pick base.machineId cur.machineId stored.machineId
  velociraptorClientId :=
    pick base.velociraptorClientId cur.velociraptorClientId stored.velociraptorClientId
  flowId := pick base.flowId cur.flowId stored.flowId
  artifacts := pick base.artifacts cur.artifacts stored.artifacts
  status := pick base.status cur.status stored.status
  llmProvider := pick base.llmProvider cur.llmProvider stored.llmProvider
  llmModel := pick base.llmModel cur.llmModel stored.llmModel
  inputTokens := pick base.inputTokens cur.inputTokens stored.inputTokens
  outputTokens := pick base.outputTokens cur.outputTokens stored.outputTokens
  estimatedCostUsd := pick base.estimatedCostUsd cur.estimatedCostUsd stored.estimatedCostUsd
  reportMarkdown := pick base.reportMarkdown cur.reportMarkdown stored.reportMarkdown
  severity := pick base.severity cur.severity stored.severity
  findingsCount := pick base.findingsCount cur.findingsCount stored.findingsCount
  rawArtifacts := pick base.rawArtifacts cur.rawArtifacts stored.rawArtifacts
  customInstructions :=
    pick base.customInstructions cur.customInstructions stored.customInstructions
  externalOrchestrator :=
    pick base.externalOrchestrator cur.externalOrchestrator stored.externalOrchestrator
  externalJobId := pick base.externalJobId cur.externalJobId stored.externalJobId
  externalPolledAt := pick base.externalPolledAt cur.externalPolledAt stored.externalPolledAt
  hermesStatus := pick base.hermesStatus cur.hermesStatus stored.hermesStatus
  hermesResponse := pick base.hermesResponse cur.hermesResponse stored.hermesResponse
  findings := pick base.findings cur.findings stored.findings
  iocs := pick base.iocs cur.iocs stored.iocs
  callbackReceivedAt :=
    pick base.callbackReceivedAt cur.callbackReceivedAt stored.callbackReceivedAt
  externalCallbackIdempotencyKey :=
    pick base.externalCallbackIdempotencyKey cur.externalCallbackIdempotencyKey
      stored.externalCallbackIdempotencyKey
  error := pick base.error cur.error stored.error
  requestedBy := pick base.requestedBy cur.requestedBy stored.requestedBy
  startedAt := pick base.startedAt cur.startedAt stored.startedAt
  completedAt := pick base.completedAt cur.completedAt stored.completedAt
  createdAt := pick base.createdAt cur.createdAt stored.createdAt

@[simp] theorem writeBack_same (b s : DfirInvestigation) : writeBack b b s = s := by
  simp [writeBack]

@[simp] theorem writeBack_base (b c : DfirInvestigation) : writeBack b c b = c := by
  simp [writeBack]

/-- The columns that no operation after the insert assigns. -/
structure Kept (a b : DfirInvestigation) : Prop where
  machineId : b.machineId = a.machineId
  externalOrchestrator : b.externalOrchestrator = a.externalOrchestrator
  requestedBy : b.requestedBy = a.requestedBy
  createdAt : b.createdAt = a.createdAt

theorem Kept.refl (a : DfirInvestigation) : Kept a a := ⟨rfl, rfl, rfl, rfl⟩

variable {a b c : DfirInvestigation}

theorem Kept.trans (hab : Kept a b) (hbc : Kept b c) : Kept a c :=
  ⟨hbc.1.trans hab.1, hbc.2.trans hab.2, hbc.3.trans hab.3, hbc.4.trans hab.4⟩

theorem Kept.symm (h : Kept a b) : Kept b a :=
  ⟨h.1.symm, h.2.symm, h.3.symm, h.4.symm⟩

theorem Kept.writeBack (h : Kept b c) (s : DfirInvestigation) : Kept s (writeBack b c s) where
  machineId := by rw [DfirInvestigation.writeBack, h.machineId, pick_same]
  externalOrchestrator := by rw [DfirInvestigation.writeBack, h.externalOrchestrator, pick_same]
  requestedBy := by rw [DfirInvestigation.writeBack, h.requestedBy, pick_same]
  createdAt := by rw [DfirInvestigation.writeBack, h.createdAt, pick_same]

theorem status_writeBack (b c s : DfirInvestigation) :
    (writeBack b c s).status = pick b.status c.status s.status := rfl

/-- Everything of an object but its flows.  A change in place of the flows is not seen by the
session, so this is what one flush and the next one agree on. -/
def butFlows (r : DfirInvestigation) : DfirInvestigation := { r with rawArtifacts := none }

theorem congr_butFlows {α : Type} (f : DfirInvestigation → α) (hf : ∀ r, f r.butFlows = f r)
    (h : a.butFlows = b.butFlows) : f a = f b := by
  rw [← hf a, ← hf b, h]

theorem status_eq_of_butFlows (h : a.butFlows = b.butFlows) :
    a.status = b.status := congr_butFlows status (fun _ => rfl) h

theorem kept_of_butFlows (h : a.butFlows = b.butFlows) : Kept a b where
  machineId := congr_butFlows machineId (fun _ => rfl) h.symm
  externalOrchestrator := congr_butFlows externalOrchestrator (fun _ => rfl) h.symm
  requestedBy := congr_butFlows requestedBy (fun _ => rfl) h.symm
  createdAt := congr_butFlows createdAt (fun _ => rfl) h.symm

end DfirInvestigation

/-! ## What a call leaves -/

/-- A call of a service function on a loaded object: the session it leaves, and the exception it
ends with, if any. -/
structure Outcome (ε : Type) where
  session : Session DfirInvestigation
  raised : Option ε

namespace Outcome

variable {ε : Type}

/-- The call returns. -/
def ret (s : Session DfirInvestigation) : Outcome ε := ⟨s, none⟩

/-- The call raises. -/
def raise (s : Session DfirInvestigation) (e : ε) : Outcome ε := ⟨s, some e⟩

@[simp] theorem session_ret (s : Session DfirInvestigation) : (ret s : Outcome ε).session = s := rfl

@[simp] theorem raised_ret (s : Session DfirInvestigation) : (ret s : Outcome ε).raised = none :=
  rfl

@[simp] theorem session_raise (s : Session DfirInvestigation) (e : ε) :
    (raise s e).session = s := rfl

@[simp] theorem raised_raise (s : Session DfirInvestigation) (e : ε) :
    (raise s e).raised = some e := rfl

end Outcome

/-- What an HTTP request to DeepAgent gives: an exception of the client, or a response with its
status code, the text of the exception `raise_for_status` makes of it, and what decoding its body
gives. -/
inductive HttpAnswer where
  | raised (e : PyExc)
  | response (statusCode : ℕ) (statusError : String) (body : Except PyExc Json)

/-- `t and (now - t).total_seconds() > n`. -/
def olderThan (t : Option Time) (n : ℤ) (now : Time) : Bool :=
  t.any fun t => decide (seconds n < now - t)

/-- The settings the investigation service reads. -/
structure Settings where
  deepagentMaxConcurrentJobs : ℕ
  deepagentRequestTimeoutSeconds : ℤ
  deepagentReconcileMaxUncertainSeconds : ℤ
  deepagentEnabled : Bool
  deepagentApiKey : String
  llmCollectMaxWaitSeconds : ℤ
  llmExternalOrchestrator : String
  llmDefaultArtifacts : List String
  deriving DecidableEq

end AssetInventory

import AssetInventory.Lib.RowLocks
import AssetInventory.Server.Callers

/-!
# Requests for an investigation

An administrator asks for the investigation of a machine, and super administrators decide: they approve
the request, reject it, or note that the investigation is completed or has failed.  A decision reads the
status, checks it, and writes the row without having locked it, so the status may be another one by then.

* `DfirInvestigationRequest`: the rows; `createRequest`, `approveRequest`, `rejectRequest`,
  `completeRequest`, `patchRequest`: the routes.
* `Moves`: the moves of the status that the workflow has; `KeepsDecisions`: a step that makes no others.
* `StillAdmitted`: the condition on an `UPDATE`, that the status it finds is one that the decision admits.
* `decisions_of_runs`: in a run whose updates meet it, a decided request stays decided.
-/

namespace AssetInventory.DfirRequests

open PyTime Orm RowStore ReadCommitted Server Interleaving

/-! ## The tables -/

inductive Status where
  | pending | approved | rejected | running | completed | failed
  deriving DecidableEq

/-- The status in a text. -/
def Status.value : Status → String
  | .pending => "pending"
  | .approved => "approved"
  | .rejected => "rejected"
  | .running => "running"
  | .completed => "completed"
  | .failed => "failed"

inductive Urgency where
  | low | normal | high | critical
  deriving DecidableEq

/-- A row of `dfir_investigation_requests`. -/
structure DfirInvestigationRequest where
  machineId : Uuid
  artifact : String
  reason : Option String
  urgency : Urgency
  status : Status
  requestedBy : Uuid
  reviewedBy : Option Uuid
  reviewNotes : Option String
  velociraptorFlowId : Option String
  velociraptorUrl : Option String
  completedAt : Option Time
  createdAt : Time
  deriving DecidableEq

/-- An `UPDATE` of a request: the columns in which the object differs from what was loaded. -/
def DfirInvestigationRequest.writeBack (base cur stored : DfirInvestigationRequest) :
    DfirInvestigationRequest where
  machineId := pick base.machineId cur.machineId stored.machineId
  artifact := pick base.artifact cur.artifact stored.artifact
  reason := pick base.reason cur.reason stored.reason
  urgency := pick base.urgency cur.urgency stored.urgency
  status := pick base.status cur.status stored.status
  requestedBy := pick base.requestedBy cur.requestedBy stored.requestedBy
  reviewedBy := pick base.reviewedBy cur.reviewedBy stored.reviewedBy
  reviewNotes := pick base.reviewNotes cur.reviewNotes stored.reviewNotes
  velociraptorFlowId :=
    pick base.velociraptorFlowId cur.velociraptorFlowId stored.velociraptorFlowId
  velociraptorUrl := pick base.velociraptorUrl cur.velociraptorUrl stored.velociraptorUrl
  completedAt := pick base.completedAt cur.completedAt stored.completedAt
  createdAt := pick base.createdAt cur.createdAt stored.createdAt

/-- `DfirInvestigationRequestReview.action`; the schema admits no others. -/
inductive Action where
  | approve | reject | complete | fail
  deriving DecidableEq

/-- The tables.  Of a machine only its host name is read. -/
structure Data where
  users : Table Uuid User
  machines : Table Uuid (Option String)
  requests : Table Uuid DfirInvestigationRequest
  audit : List AuditLog

/-- The rows that are updated. -/
inductive RowKey where
  | request (id : Uuid)
  deriving DecidableEq

/-- What a statement writes. -/
inductive DataWrite where
  /-- `INSERT INTO dfir_investigation_requests`. -/
  | newRequest (id : Uuid) (row : DfirInvestigationRequest)
  /-- `UPDATE dfir_investigation_requests` by a decision, with the object as loaded and as it is. -/
  | decide (id : Uuid) (action : Action) (base cur : DfirInvestigationRequest)
  /-- `INSERT INTO audit_log`. -/
  | audit (row : AuditLog)

/-- The tables after a write. -/
def DataWrite.apply (d : Data) : DataWrite → Data
  | .newRequest id row => { d with requests := d.requests.insert id row }
  | .decide id _ base cur =>
    { d with requests := d.requests.modify id (DfirInvestigationRequest.writeBack base cur) }
  | .audit row => { d with audit := d.audit ++ [row] }

instance : Applies DataWrite Data := ⟨fun w d => w.apply d⟩

section Apply

variable (d : Data)

end Apply

/-- The programs of the routes: the clock is all that they ask, and a commit announces nothing. -/
abbrev Handler := Prog Data RowKey DataWrite Time Empty

/-! ## The routes -/

/-- What the routes take from their surroundings. -/
structure Config where
  /-- The hexadecimal SHA-256 digest of a text. -/
  sha256 : String → String
  /-- When the server was started: the default of `created_at` is computed once. -/
  startedAt : Time

structure DfirInvestigationRequestCreate where
  machineId : Uuid
  artifact : String
  reason : Option String
  urgency : Urgency

structure DfirInvestigationRequestReview where
  action : Action
  notes : Option String
  velociraptorFlowId : Option String

/-- `DfirInvestigationRequestOut`; the routes leave out who has reviewed the request, and when. -/
structure DfirInvestigationRequestOut where
  id : Uuid
  machineId : Uuid
  machineHostname : Option String
  artifact : String
  reason : Option String
  urgency : Urgency
  status : Status
  requestedBy : Option String
  requestedAt : Time
  reviewNotes : Option String
  completedAt : Option Time
  velociraptorFlowId : Option String
  velociraptorUrl : Option String

def requestToOut (id : Uuid) (req : DfirInvestigationRequest) (includeVendor : Bool) :
    Handler DfirInvestigationRequestOut := do
  let requester ← .select fun data => data.users.get req.requestedBy
  let machine ← .select fun data => data.machines.get req.machineId
  return {
    id := id
    machineId := req.machineId
    machineHostname := machine.bind fun hostname => hostname
    artifact := req.artifact
    reason := req.reason
    urgency := req.urgency
    status := req.status
    requestedBy := requester.map User.fullName
    requestedAt := req.createdAt
    reviewNotes := req.reviewNotes
    completedAt := req.completedAt
    velociraptorFlowId := if includeVendor then req.velociraptorFlowId else none
    velociraptorUrl := if includeVendor then req.velociraptorUrl else none }

/-- `db.refresh(req)`, and the answer. -/
def refreshed (id : Uuid) (includeVendor : Bool) :
    Handler (Except HttpError DfirInvestigationRequestOut) := do
  let found ← .select fun data => data.requests.get id
  match found with
  | none => return .error ⟨500, "Internal Server Error"⟩
  | some req =>
    let out ← requestToOut id req includeVendor
    return .ok out

/-- `if text:`, for a text that may be absent. -/
def given (text : Option String) : Option String := text.filter fun t => decide (t ≠ "")

section Routes

variable (c : Config)

def appendAudit (action actor target : String) (ip : Option String) (machineId : Uuid) :
    Handler Unit := do
  let ts ← .answer id
  let prev ← .select fun data => getLastHash data.audit
  let rowId ← .fresh
  .insert (.audit
    { id := rowId
      actor := some actor
      action := action
      target := some target
      ts := ts
      ip := ip
      prevHash := prev
      contentHash := contentHash c.sha256 ⟨action, some target, some actor, ts⟩
      requestId := none
      machineId := some machineId })

def createRequest (body : DfirInvestigationRequestCreate) (caller : Option Uuid) (ip : Option String) :
    Handler (Except HttpError DfirInvestigationRequestOut) := do
  let user ← Callers.requireAdmin Data.users caller
  match user with
  | .error e => return .error e
  | .ok (userId, _) =>
    let machine ← .select fun data => data.machines.get body.machineId
    if machine = none then return .error ⟨404, "Máy không tồn tại"⟩
    else
      let id ← .fresh
      .insert (.newRequest id
        { machineId := body.machineId
          artifact := body.artifact
          reason := body.reason
          urgency := body.urgency
          status := .pending
          requestedBy := userId
          reviewedBy := none
          reviewNotes := none
          velociraptorFlowId := none
          velociraptorUrl := none
          completedAt := none
          createdAt := c.startedAt })
      appendAudit c "dfir.request.create" (toString userId) (toString id) ip body.machineId
      .publish []
      refreshed id false

/-- The column for the flow takes 64 characters. -/
def tooLong (req : DfirInvestigationRequest) : Bool :=
  req.velociraptorFlowId.any fun flowId => decide (64 < flowId.length)

/-- The `UPDATE` of a decision, if the object has changed.  It fails if a text is too long, or if the row
is gone. -/
def flushRequest (id : Uuid) (action : Action) (base cur : DfirInvestigationRequest) : Handler Bool := do
  if base = cur then return true
  else
    let data ← .update (.request id) fun _ =>
      if tooLong cur then [] else [.decide id action base cur]
    return !tooLong cur && (data.requests.get id).isSome

/-- The statuses that a decision admits.  A failure is noted whatever the status. -/
def Action.admits : Action → Status → Bool
  | .approve, status => status = .pending
  | .reject, status => status ∈ [Status.pending, .approved]
  | .complete, status => status ∈ [Status.approved, .running]
  | .fail, _ => true

/-- A decision: the request is loaded and its status checked, then the object is changed, written and
committed. -/
def decideRequest (action : Action) (auditAction : String) (refusal : Status → String)
    (assign : DfirInvestigationRequest → Handler DfirInvestigationRequest) (reqId : Uuid)
    (ip : Option String) (admin : Uuid) : Handler (Except HttpError DfirInvestigationRequestOut) := do
  let found ← .select fun data => data.requests.get reqId
  match found with
  | none => return .error ⟨404, "Yêu cầu không tồn tại"⟩
  | some req =>
    if action.admits req.status then
      let cur ← assign req
      let written ← flushRequest reqId action req cur
      if written then
        appendAudit c auditAction (toString admin) (toString reqId) ip req.machineId
        .publish []
        refreshed reqId true
      else return .error ⟨500, "Internal Server Error"⟩
    else return .error ⟨400, refusal req.status⟩

def approveRequest (reqId : Uuid) (ip : Option String) (admin : Uuid) :
    Handler (Except HttpError DfirInvestigationRequestOut) :=
  decideRequest c .approve "dfir.request.approve"
    (fun status => "Yêu cầu đang ở trạng thái " ++ status.value ++ ", không thể duyệt")
    (fun req => pure { req with status := .approved, reviewedBy := some admin })
    reqId ip admin

def rejectRequest (reqId : Uuid) (body : DfirInvestigationRequestReview) (ip : Option String)
    (admin : Uuid) : Handler (Except HttpError DfirInvestigationRequestOut) :=
  decideRequest c .reject "dfir.request.reject"
    (fun status => "Yêu cầu đang ở trạng thái " ++ status.value)
    (fun req => pure
      { req with status := .rejected, reviewedBy := some admin, reviewNotes := body.notes })
    reqId ip admin

def completeRequest (reqId : Uuid) (body : DfirInvestigationRequestReview) (ip : Option String)
    (admin : Uuid) : Handler (Except HttpError DfirInvestigationRequestOut) :=
  decideRequest c .complete "dfir.request.complete"
    (fun status => "Yêu cầu phải ở trạng thái approved/running, hiện tại: " ++ status.value)
    (fun req => do
      let time ← .answer id
      return { req with
        status := .completed
        completedAt := some time
        velociraptorFlowId := (given body.velociraptorFlowId).or req.velociraptorFlowId
        reviewNotes := (given body.notes).or req.reviewNotes })
    reqId ip admin

/-- The branch of `patch_request` for the action `fail`.  It has no check of the status. -/
def failRequest (reqId : Uuid) (body : DfirInvestigationRequestReview) (ip : Option String)
    (admin : Uuid) : Handler (Except HttpError DfirInvestigationRequestOut) :=
  decideRequest c .fail "dfir.request.fail" (fun _ => "")
    (fun req => do
      let time ← .answer id
      return { req with status := .failed, completedAt := some time, reviewNotes := body.notes })
    reqId ip admin

def patchRequest (reqId : Uuid) (body : DfirInvestigationRequestReview) (ip : Option String)
    (admin : Uuid) : Handler (Except HttpError DfirInvestigationRequestOut) :=
  match body.action with
  | .approve => approveRequest c reqId ip admin
  | .reject => rejectRequest c reqId body ip admin
  | .complete => completeRequest c reqId body ip admin
  | .fail => failRequest c reqId body ip admin

/-! ## Requests -/

/-- What a super administrator asks of a request for an investigation. -/
inductive Decision where
  | approve
  | reject (body : DfirInvestigationRequestReview)
  | complete (body : DfirInvestigationRequestReview)
  | patch (body : DfirInvestigationRequestReview)

/-- The requests of the routes that write. -/
inductive DfirRequest where
  | create (body : DfirInvestigationRequestCreate) (caller : Option Uuid) (ip : Option String)
  | decide (decision : Decision) (reqId : Uuid) (caller : Option Uuid) (ip : Option String)

def Decision.route (reqId : Uuid) (ip : Option String) (admin : Uuid) :
    Decision → Handler (Except HttpError DfirInvestigationRequestOut)
  | .approve => approveRequest c reqId ip admin
  | .reject body => rejectRequest c reqId body ip admin
  | .complete body => completeRequest c reqId body ip admin
  | .patch body => patchRequest c reqId body ip admin

def answerRequest : DfirRequest → Handler (Except HttpError DfirInvestigationRequestOut)
  | .create body caller ip => createRequest c body caller ip
  | .decide decision reqId caller ip => do
    let admin ← Callers.requireSuperAdmin Data.users caller
    match admin with
    | .error e => return .error e
    | .ok (adminId, _) => decision.route c reqId ip adminId

/-- The program of a request. -/
def dfirRoute (request : DfirRequest) : Handler Unit := do
  let _ ← answerRequest c request

end Routes

/-! ## The workflow -/

/-- A request that has been decided for good. -/
def Status.isFinal (status : Status) : Bool := status ∈ [Status.completed, .rejected, .failed]

/-- The status of a decision. -/
def Action.status : Action → Status
  | .approve => .approved
  | .reject => .rejected
  | .complete => .completed
  | .fail => .failed

inductive Moves : Status → Status → Prop where
  | approve : Moves .pending .approved
  | reject : Moves .pending .rejected
  | withdraw : Moves .approved .rejected
  | complete : Moves .approved .completed
  | fail {status : Status} (h : status.isFinal = false) : Moves status .failed

/-- Nothing is running, and the time of completion is set exactly if the status is completed or failed. -/
structure DfirInvestigationRequest.Consistent (req : DfirInvestigationRequest) : Prop where
  notRunning : req.status ≠ .running
  completed : req.completedAt.isSome = true ↔ req.status = .completed ∨ req.status = .failed

def Consistent (data : Data) : Prop := ∀ id req, data.requests.get id = some req → req.Consistent

/-- Every request stays, and its status stays or makes one of the moves. -/
def KeepsDecisions (before after : Data) : Prop :=
  ∀ id req, before.requests.get id = some req →
    ∃ req', after.requests.get id = some req' ∧ (req'.status = req.status ∨ Moves req.status req'.status)

theorem KeepsDecisions.refl (data : Data) : KeepsDecisions data data :=
  fun _ req h => ⟨req, h, Or.inl rfl⟩

theorem Moves.not_final {status status' : Status} (h : Moves status status') :
    status.isFinal = false := by
  cases h with
  | fail h => exact h
  | _ => rfl

variable {req base cur stored : DfirInvestigationRequest}

theorem KeepsDecisions.status_eq {before after : Data} (h : KeepsDecisions before after) {id : Uuid}
    (hreq : before.requests.get id = some req)
    (hfinal : req.status.isFinal = true) :
    ∃ req', after.requests.get id = some req' ∧ req'.status = req.status := by
  obtain ⟨req', hreq', hsame | hmove⟩ := h id req hreq
  · exact ⟨req', hreq', hsame⟩
  · have hnot : req.status.isFinal = false := hmove.not_final
    rw [hfinal] at hnot
    cases hnot

/-! ## The condition -/

/-- The request that is written has the status of the decision already; or it has a status which the
decision admits, and no failure is noted of a request that has been decided for good. -/
def DataWrite.Admitted (data : Data) : DataWrite → Prop
  | .decide id action _ _ => ∀ req ∈ data.requests.get id, req.status = action.status ∨
      action.admits req.status = true ∧ (action = .fail → req.status.isFinal = false)
  | .newRequest _ _ => True
  | .audit _ => True

/-- **The condition on an `UPDATE`**: the check of the decision, made again when the row is written, would
still let it pass, and no failure is noted of a request that has been decided for good; or the same has
been decided meanwhile. -/
def StillAdmitted (s : Store Data RowKey Empty) (_ : Option RowKey) (writes : List DataWrite) : Prop :=
  ∀ w ∈ writes, w.Admitted s.data

instance (data : Data) : DecidablePred (DataWrite.Admitted data)
  | .decide id action _ _ => inferInstanceAs (Decidable (∀ req ∈ data.requests.get id,
      req.status = action.status ∨ action.admits req.status = true ∧ (action = .fail → req.status.isFinal = false)))
  | .newRequest _ _ => isTrue trivial
  | .audit _ => isTrue trivial

instance (s : Store Data RowKey Empty) (row : Option RowKey) (writes : List DataWrite) :
    Decidable (StillAdmitted s row writes) :=
  inferInstanceAs (Decidable (∀ w ∈ writes, w.Admitted s.data))

/-! ## Decisions -/

/-- What a decision makes of a request. -/
structure Decides (action : Action) (base cur : DfirInvestigationRequest) : Prop where
  status : cur.status = action.status
  completedAt : if action.status = .completed ∨ action.status = .failed then
    cur.completedAt.isSome = true else cur.completedAt = base.completedAt

theorem DfirInvestigationRequest.Consistent.completedAt_eq
    (h : req.Consistent) (hopen : req.status.isFinal = false) : req.completedAt = none := by
  have hnot : ¬ (req.status = .completed ∨ req.status = .failed) := by
    rintro (heq | heq)
    · rw [heq] at hopen
      cases hopen
    · rw [heq] at hopen
      cases hopen
  simpa using h.completed.not.mpr hnot

variable {action : Action}

/-- What a decision admits is open, if a failure is noted of an open request only. -/
theorem Action.admits_open {status : Status} (h : action.admits status = true)
    (hfail : action = .fail → status.isFinal = false) : status.isFinal = false := by
  cases action with
  | fail => exact hfail rfl
  | _ => cases status <;> first | rfl | exact absurd h (by decide)

theorem Action.moves {status : Status} (h : action.admits status = true)
    (hrunning : status ≠ .running) (hopen : status.isFinal = false) : Moves status action.status := by
  cases action with
  | approve =>
    rw [show status = .pending from of_decide_eq_true h]
    exact .approve
  | reject =>
    have hmem : status = .pending ∨ status = .approved := by simpa using of_decide_eq_true h
    rcases hmem with rfl | rfl
    · exact .reject
    · exact .withdraw
  | complete =>
    have hmem : status = .approved ∨ status = .running := by simpa using of_decide_eq_true h
    rcases hmem with rfl | rfl
    · exact .complete
    · exact absurd rfl hrunning
  | fail => exact .fail hopen

/-- **A decision written** over a request whose status it admits: the status makes a move, and the request
stays consistent. -/
theorem Decides.writeBack_open
    (h : Decides action base cur) (hbase : base.Consistent)
    (hadmits : action.admits base.status = true)
    (hkept : base.status.isFinal = true → stored.status = base.status) (hstored : stored.Consistent)
    (hadmits' : action.admits stored.status = true) (hopen' : stored.status.isFinal = false) :
    Moves stored.status (DfirInvestigationRequest.writeBack base cur stored).status ∧
      (DfirInvestigationRequest.writeBack base cur stored).Consistent := by
  have hopen : base.status.isFinal = false := by
    cases hfinal : base.status.isFinal with
    | false => rfl
    | true =>
      rw [hkept hfinal, hfinal] at hopen'
      cases hopen'
  have hne : action.status ≠ base.status := by
    rintro heq
    rw [← heq] at hadmits hopen
    cases action with
    | approve => exact absurd hadmits (by decide)
    | _ => exact absurd hopen (by decide)
  have hstatus : (DfirInvestigationRequest.writeBack base cur stored).status = action.status :=
    (pick_of_ne (by rwa [h.status]) _).trans h.status
  have hcompleted : (DfirInvestigationRequest.writeBack base cur stored).completedAt.isSome = true ↔
      action.status = .completed ∨ action.status = .failed := by
    have hnone : base.completedAt = none := hbase.completedAt_eq hopen
    have hcur := h.completedAt
    change (pick base.completedAt cur.completedAt stored.completedAt).isSome = true ↔ _
    split at hcur
    · rename_i hclosing
      have hwritten : cur.completedAt ≠ base.completedAt := by
        rw [hnone]
        exact Option.isSome_iff_ne_none.mp hcur
      rw [pick_of_ne hwritten]
      exact iff_of_true hcur hclosing
    · rename_i hclosing
      rw [hcur, pick_same, hstored.completedAt_eq hopen']
      exact iff_of_false (by simp) hclosing
  rw [hstatus]
  refine ⟨Action.moves hadmits' hstored.notRunning hopen', ?_, ?_⟩
  · rw [hstatus]
    cases action <;> decide
  · rw [hstatus]
    exact hcompleted

theorem Decides.writeBack_same
    (h : Decides action base cur) (hstored : stored.Consistent)
    (hsame : stored.status = action.status) :
    (DfirInvestigationRequest.writeBack base cur stored).status = stored.status ∧
      (DfirInvestigationRequest.writeBack base cur stored).Consistent := by
  have hstatus : (DfirInvestigationRequest.writeBack base cur stored).status = stored.status := by
    rcases pick_cases base.status cur.status stored.status with ⟨-, hpick⟩ | ⟨-, hpick⟩
    · exact hpick
    · exact hpick.trans (h.status.trans hsame.symm)
  have hcompleted :
      (DfirInvestigationRequest.writeBack base cur stored).completedAt.isSome =
        stored.completedAt.isSome := by
    have hcur := h.completedAt
    rcases pick_cases base.completedAt cur.completedAt stored.completedAt with ⟨-, hpick⟩ | ⟨hne, hpick⟩
    · exact congrArg Option.isSome hpick
    · split at hcur
      · rename_i hclosing
        rw [← hsame] at hclosing
        rw [hstored.completed.mpr hclosing]
        exact (congrArg Option.isSome hpick).trans hcur
      · exact absurd hcur hne
  refine ⟨hstatus, ?_, ?_⟩
  · rw [hstatus]
    exact hstored.notRunning
  · rw [hstatus, hcompleted]
    exact hstored.completed

/-! ## Commits -/

/-- The discipline of the routes. -/
abbrev requestDiscipline : Discipline Data RowKey DataWrite Empty :=
  rowLocks (fun data key => match key with | .request id => data.requests.get id) Consistent
    KeepsDecisions KeepsDecisions.refl (fun _ _ _ => True) StillAdmitted

variable {s : Store Data RowKey Empty} {p : TxId} {ws : List DataWrite}

/-- What is pending writes no requests. -/
def NoRequests (ws : List DataWrite) : Prop := ∀ d : Data, (applyAll ws d).requests = d.requests

/-- What is pending writes the decision. -/
def WritesDecision (id : Uuid) (base cur : DfirInvestigationRequest) (ws : List DataWrite) : Prop :=
  ∀ d : Data, (applyAll ws d).requests =
    d.requests.modify id (DfirInvestigationRequest.writeBack base cur)

/-- What is pending writes the request. -/
def WritesNew (id : Uuid) (req : DfirInvestigationRequest) (ws : List DataWrite) : Prop :=
  ∀ d : Data, (applyAll ws d).requests = d.requests.insert id req

theorem requests_applyAll_audit (d : Data) (row : AuditLog) :
    (applyAll (ws ++ [.audit row]) d).requests = (applyAll ws d).requests := by
  rw [applyAll_append]
  rfl

theorem publish_noRequests (hinv : Consistent s.data) (hws : NoRequests ws) :
    requestDiscipline.Inv (s.publish p ws []) ∧ requestDiscipline.Guar p s (s.publish p ws []) := by
  have hsame : (s.view ws).requests = s.data.requests := hws s.data
  refine rowLocks_publish ?_ ?_ ?_
  · intro id req h
    rw [hsame] at h
    exact hinv id req h
  · intro id req h
    rw [hsame]
    exact ⟨req, h, Or.inl rfl⟩
  · rintro ⟨id⟩ req - h
    change (s.view ws).requests.get id = some req
    rw [hsame]
    exact h

/-- **The commit of a decision** about a request that the transaction has locked. -/
theorem publish_decision {id : Uuid}
    (hinv : Consistent s.data) (hws : WritesDecision id base cur ws)
    (hlocked : s.locks (.request id) = some p) (hstored : s.data.requests.get id = some stored)
    (hmove : (DfirInvestigationRequest.writeBack base cur stored).status = stored.status ∨
      Moves stored.status (DfirInvestigationRequest.writeBack base cur stored).status)
    (hcur : (DfirInvestigationRequest.writeBack base cur stored).Consistent) :
    requestDiscipline.Inv (s.publish p ws []) ∧ requestDiscipline.Guar p s (s.publish p ws []) := by
  have hself : (s.view ws).requests.get id =
      some (DfirInvestigationRequest.writeBack base cur stored) := by
    rw [show (s.view ws).requests = _ from hws s.data, Table.get_modify_self, hstored]
    rfl
  have hother : ∀ id', id' ≠ id → (s.view ws).requests.get id' = s.data.requests.get id' := by
    intro id' hid
    rw [show (s.view ws).requests = _ from hws s.data]
    exact Table.get_modify_of_ne _ _ hid
  refine rowLocks_publish ?_ ?_ ?_
  · intro id' req h
    by_cases hid : id' = id
    · subst hid
      rw [hself] at h
      rwa [← Option.some.inj h]
    · rw [hother id' hid] at h
      exact hinv id' req h
  · intro id' req h
    by_cases hid : id' = id
    · subst hid
      rw [hstored] at h
      rw [← Option.some.inj h]
      exact ⟨_, hself, hmove⟩
    · rw [← hother id' hid] at h
      exact ⟨req, h, Or.inl rfl⟩
  · rintro ⟨id'⟩ req hfree h
    have hid : id' ≠ id := by
      rintro rfl
      exact hfree hlocked
    exact (hother id' hid).trans h

theorem publish_new {id : Uuid} (hinv : Consistent s.data)
    (hws : WritesNew id req ws) (hreq : req.Consistent) :
    requestDiscipline.Inv (s.publish p ws []) ∧ requestDiscipline.Guar p s (s.publish p ws []) := by
  have hview : (s.view ws).requests = s.data.requests.insert id req := hws s.data
  have hold : ∀ id' old, s.data.requests.get id' = some old →
      (s.view ws).requests.get id' = some old := by
    intro id' old h
    rw [hview]
    exact Table.get_insert_of_get h
  refine rowLocks_publish ?_ ?_ ?_
  · intro id' row h
    rw [hview] at h
    rcases Table.get_insert_cases h with ⟨-, rfl, -⟩ | h
    · exact hreq
    · exact hinv id' row h
  · exact fun id' old h => ⟨old, hold id' old h, Or.inl rfl⟩
  · exact fun ⟨id'⟩ old _ h => hold id' old h

/-! ## The routes keep the discipline -/

section Safe

variable (c : Config) {B : List Empty → Prop} {A : DataWrite → Prop}

theorem only_appendAudit (hA : ∀ row, A (.audit row))
    (action actor target : String) (ip : Option String) (machineId : Uuid) :
    (appendAudit c action actor target ip machineId).Only A B fun _ => True :=
  only_answer _ fun _ => only_select _ fun _ => only_fresh fun _ => only_insert (hA _) (only_pure trivial)

theorem only_requestToOut (id : Uuid) (req : DfirInvestigationRequest) (includeVendor : Bool) :
    (requestToOut id req includeVendor).Only A B fun _ => True :=
  only_select _ fun _ => only_select _ fun _ => only_pure trivial

theorem only_refreshed (id : Uuid)
    (includeVendor : Bool) : (refreshed id includeVendor).Only A B fun _ => True := by
  refine only_select _ fun found => ?_
  cases found with
  | none => exact only_pure trivial
  | some req => exact (only_requestToOut id req includeVendor).bind fun _ _ => only_pure trivial

/-- **The end of a request**: the audit, the commit and the answer. -/
theorem safe_finish {P : List DataWrite → Store Data RowKey Empty → Prop}
    (hP : Stable requestDiscipline p P) (haudit : ∀ ws s row, P ws s → P (ws ++ [.audit row]) s)
    (hcommit : ∀ ws s, Consistent s.data → P ws s →
      requestDiscipline.Inv (s.publish p ws []) ∧ requestDiscipline.Guar p s (s.publish p ws []))
    (h : P ws s) (action actor target : String) (ip : Option String) (machineId id : Uuid)
    (includeVendor : Bool) :
    (do
      appendAudit c action actor target ip machineId
      .publish []
      refreshed id includeVendor : Handler _).Safe requestDiscipline p anyEnd ws s := by
  refine hP.bind (A := fun w => ∃ row, w = .audit row) ?_ (only_appendAudit c (fun row => ⟨row, rfl⟩)
    action actor target ip machineId) h fun _ ws' t _ hws => ?_
  · rintro ws s _ ⟨row, rfl⟩ hs
    exact haudit ws s row hs
  · refine safe_publish _ fun u htu hinv _ => ?_
    obtain ⟨hinv', hguar⟩ := hcommit ws' u hinv (hP.rely _ _ _ htu hws)
    exact ⟨hinv', hguar, (only_refreshed id includeVendor).safe_anyEnd⟩

/-- What a decision knows of the request that it has loaded: it was consistent, it is still there, and if
it was decided for good, it still has that status. -/
structure Known (id : Uuid) (base : DfirInvestigationRequest) (data : Data) : Prop where
  consistent : base.Consistent
  there : ∃ req, data.requests.get id = some req ∧ (base.status.isFinal = true → req.status = base.status)

theorem Known.step {id : Uuid} {data data' : Data}
    (h : KeepsDecisions data data') (hknown : Known id base data) : Known id base data' := by
  obtain ⟨req, hreq, hsame⟩ := hknown.there
  refine ⟨hknown.consistent, ?_⟩
  cases hfinal : base.status.isFinal with
  | false =>
    obtain ⟨req', hreq', -⟩ := h id req hreq
    exact ⟨req', hreq', fun h => by cases h⟩
  | true =>
    obtain ⟨req', hreq', hstatus⟩ := h.status_eq hreq (by rwa [hsame hfinal])
    exact ⟨req', hreq', fun _ => hstatus.trans (hsame hfinal)⟩

/-- **A decision**, once it is known what it assigns. -/
theorem safe_decideRequest (action : Action) (auditAction : String) (refusal : Status → String)
    {assign : DfirInvestigationRequest → Handler DfirInvestigationRequest}
    (hassign : ∀ req, (assign req).Only (fun _ => False) (fun _ => False) (Decides action req))
    (reqId : Uuid) (ip : Option String) (admin : Uuid) :
    (decideRequest c action auditAction refusal assign reqId ip admin).Safe requestDiscipline p anyEnd
      [] s := by
  refine safe_select _ fun t _ hinv => ?_
  cases hfound : (t.view ([] : List DataWrite)).requests.get reqId with
  | none => exact safe_pure trivial
  | some base =>
    dsimp only
    split
    swap
    · exact safe_pure trivial
    rename_i hadmits
    have hknown : Known reqId base t.data := ⟨hinv reqId base hfound, base, hfound, fun _ => rfl⟩
    have hstable : Stable requestDiscipline p fun ws s => ws = [] ∧ Known reqId base s.data :=
      (stable_of_pending _ p fun ws => ws = []).and (stable_data fun _ _ => Known.step)
    refine hstable.bind (fun _ _ _ h => h.elim) (hassign base) ⟨rfl, hknown⟩ fun cur ws u hcur h => ?_
    obtain ⟨rfl, hknown'⟩ := h
    rw [flushRequest]
    by_cases hsame : base = cur
    · rw [if_pos hsame]
      refine safe_finish c (stable_of_pending _ p NoRequests) (fun ws _ row hws d => ?_)
        (fun _ _ => publish_noRequests) (fun _ => rfl) auditAction _ _ ip _ reqId true
      rw [requests_applyAll_audit]
      exact hws d
    · rw [if_neg hsame]
      refine safe_update_open _ _ fun v huv hinv' hopen => ?_
      obtain ⟨stored, hstored, hkept⟩ := (hstable.rely _ _ _ huv ⟨rfl, hknown'⟩).2.there
      cases hlong : tooLong cur with
      | true => exact safe_pure trivial
      | false =>
        rw [hlong] at hopen
        have hwritten : ((DfirInvestigationRequest.writeBack base cur stored).status = stored.status ∨
            Moves stored.status (DfirInvestigationRequest.writeBack base cur stored).status) ∧
              (DfirInvestigationRequest.writeBack base cur stored).Consistent := by
          rcases hopen _ List.mem_cons_self stored hstored with hdone | ⟨hadmitted, hfail⟩
          · obtain ⟨hstatus, hcons⟩ := hcur.writeBack_same (hinv' reqId stored hstored) hdone
            exact ⟨Or.inl hstatus, hcons⟩
          · obtain ⟨hmove, hcons⟩ := hcur.writeBack_open hknown.consistent hadmits hkept
              (hinv' reqId stored hstored) hadmitted (Action.admits_open hadmitted hfail)
            exact ⟨Or.inr hmove, hcons⟩
        -- the row is locked from here on, so the commit finds it as the update did
        have hlocked : (v.lock p (some (.request reqId))).locks (.request reqId) = some p :=
          Function.update_self _ _ _
        have hpresent : ((v.view ([] : List DataWrite)).requests.get reqId).isSome = true := by
          rw [show (v.view ([] : List DataWrite)).requests.get reqId = some stored from hstored]
          rfl
        rw [hpresent]
        refine safe_finish c ((stable_of_pending _ p (WritesDecision reqId base cur)).and
          (stable_row (.request reqId) stored)) (fun ws _ row hws => ⟨fun d => ?_, hws.2⟩)
          (fun ws u hu hws => publish_decision hu hws.1 hws.2.1 hws.2.2 hwritten.1 hwritten.2)
          ⟨fun _ => rfl, hlocked, hstored⟩ auditAction _ _ ip _ reqId true
        rw [requests_applyAll_audit]
        exact hws.1 d

theorem safe_createRequest (body : DfirInvestigationRequestCreate) (caller : Option Uuid)
    (ip : Option String) :
    (createRequest c body caller ip).Safe requestDiscipline p anyEnd [] s := by
  refine (Callers.only_requireRole Data.users _ _ caller).bind_safe fun user t _ => ?_
  cases user with
  | error e => exact safe_pure trivial
  | ok user =>
    refine safe_select _ fun u _ _ => ?_
    split
    · exact safe_pure trivial
    · refine safe_fresh fun v _ _ => safe_insert _ fun w _ _ => ?_
      refine safe_finish c (stable_of_pending _ p (WritesNew _ _)) (fun ws _ row hws d => ?_)
        (fun ws x hx hws => publish_new hx hws ⟨by simp, by simp⟩) (fun _ => rfl)
        "dfir.request.create" _ _ ip _ _ false
      rw [requests_applyAll_audit]
      exact hws d

/-- **Every request** keeps the discipline. -/
theorem safe_answerRequest (request : DfirRequest) :
    (answerRequest c request).Safe requestDiscipline p anyEnd [] s := by
  have happrove : ∀ reqId ip admin t,
      (approveRequest c reqId ip admin).Safe requestDiscipline p anyEnd [] t :=
    fun reqId ip admin t => by
      refine safe_decideRequest c .approve _ _ (fun req => ?_) reqId ip admin
      exact only_pure ⟨rfl, rfl⟩
  have hreject : ∀ reqId body ip admin t,
      (rejectRequest c reqId body ip admin).Safe requestDiscipline p anyEnd [] t :=
    fun reqId body ip admin t => by
      refine safe_decideRequest c .reject _ _ (fun req => ?_) reqId ip admin
      exact only_pure ⟨rfl, rfl⟩
  have hcomplete : ∀ reqId body ip admin t,
      (completeRequest c reqId body ip admin).Safe requestDiscipline p anyEnd [] t :=
    fun reqId body ip admin t => by
      refine safe_decideRequest c .complete _ _ (fun req => ?_) reqId ip admin
      exact only_answer _ fun _ => only_pure ⟨rfl, rfl⟩
  have hfail : ∀ reqId body ip admin t,
      (failRequest c reqId body ip admin).Safe requestDiscipline p anyEnd [] t :=
    fun reqId body ip admin t => by
      refine safe_decideRequest c .fail _ _ (fun req => ?_) reqId ip admin
      exact only_answer _ fun _ => only_pure ⟨rfl, rfl⟩
  cases request with
  | create body caller ip => exact safe_createRequest c body caller ip
  | decide decision reqId caller ip =>
    refine (Callers.only_requireRole Data.users _ _ caller).bind_safe fun admin t _ => ?_
    cases admin with
    | error e => exact safe_pure trivial
    | ok admin =>
      cases decision with
      | approve => exact happrove reqId ip admin.1 t
      | reject body => exact hreject reqId body ip admin.1 t
      | complete body => exact hcomplete reqId body ip admin.1 t
      | patch body =>
        obtain ⟨action, notes, flowId⟩ := body
        cases action with
        | approve => exact happrove reqId ip admin.1 t
        | reject => exact hreject reqId _ ip admin.1 t
        | complete => exact hcomplete reqId _ ip admin.1 t
        | fail => exact hfail reqId _ ip admin.1 t

theorem safe_dfirRoute (request : DfirRequest) :
    (dfirRoute c request).Safe requestDiscipline p anyEnd [] s :=
  (safe_answerRequest c request).bind fun _ _ _ _ => trivial

end Safe

/-! ## Runs -/

/-- The interleaving of the requests. -/
def dfirStep (c : Config) : Engine Data RowKey DataWrite Time Empty → Op DfirRequest Time →
    Option (Engine Data RowKey DataWrite Time Empty) :=
  Engine.step (dfirRoute c)

/-- What a run leaves of the decisions: in the state that it has reached the requests are consistent, and
no next step that `G` allows makes another move than those of the workflow. -/
def StaysDecided (c : Config)
    (G : Engine Data RowKey DataWrite Time Empty → Op DfirRequest Time → Prop)
    (g : Engine Data RowKey DataWrite Time Empty) : Prop :=
  Consistent g.store.data ∧
    ∀ op g', G g op → dfirStep c g op = some g' → KeepsDecisions g.store.data g'.store.data

/-- **A decided request stays decided** in every run whose updates meet the condition. -/
theorem decisions_of_runs (c : Config) {s : Store Data RowKey Empty} (hs : Consistent s.data)
    {g : Engine Data RowKey DataWrite Time Empty}
    (hrun : Runs (dfirStep c) (WritesOnly StillAdmitted) (Engine.start s) g) :
    StaysDecided c (WritesOnly StillAdmitted) g := by
  have hpermits : ∀ (g : Engine Data RowKey DataWrite Time Empty) (op : Op DfirRequest Time),
      WritesOnly StillAdmitted g op → requestDiscipline.Permits g op := by
    intro g op hop
    refine ⟨?_, hop⟩
    cases op with
    | run p e => exact fun _ _ => trivial
    | _ => trivial
  obtain ⟨hinv, hsteps⟩ := steps_of_runs (fun p request s _ => safe_dfirRoute c request) hs
    (hrun.mono hpermits)
  exact ⟨hinv, fun op g' hop hstep => hsteps op g' (hpermits g op hop) hstep⟩

/-! ## A request that is decided twice -/

/-- A request that waits for a decision. -/
def exampleRequest : DfirInvestigationRequest where
  machineId := 0
  artifact := "Windows.System.Pslist"
  reason := none
  urgency := .normal
  status := .pending
  requestedBy := 0
  reviewedBy := none
  reviewNotes := none
  velociraptorFlowId := none
  velociraptorUrl := none
  completedAt := none
  createdAt := 0

/-- A super administrator, a machine, and the request. -/
def oneRequest : Store Data RowKey Empty where
  data :=
    { users := Table.empty.insert 0 { exampleUser with role := .superAdmin }
      machines := Table.empty.insert 0 (some "pc-01")
      requests := Table.empty.insert 0 exampleRequest
      audit := [] }
  locks _ := none
  drawn := []
  events := []

/-- A digest that is always empty. -/
def exampleConfig : Config := ⟨fun _ => "", 0⟩

/-- A review without notes. -/
def exampleReview (action : Action) : DfirInvestigationRequestReview := ⟨action, none, none⟩

/-- A decision about the request, and some statements of its transaction. -/
def exampleDecision (p : TxId) (decision : Decision) (statements : ℕ) : List (Op DfirRequest Time) :=
  .begin p (.decide decision 0 (some 0) none) :: List.replicate statements (.run p 0)

theorem consistent_oneRequest : Consistent oneRequest.data := by
  intro id req h
  change (Table.empty.insert 0 exampleRequest).get id = some req at h
  rcases Table.get_insert_cases h with ⟨-, rfl, -⟩ | h
  · exact ⟨by decide, by decide⟩
  · cases h

/-- The status of a request. -/
def statusOf (data : Data) (id : Uuid) : Option Status :=
  (data.requests.get id).map DfirInvestigationRequest.status

/-- **A rejected request fails**: it is rejected, and then patched with the action `fail`. -/
theorem rejected_request_fails : ¬ ∀ (c : Config) (s : Store Data RowKey Empty), Consistent s.data →
    ∀ g, Runs (dfirStep c) anyAction (Engine.start s) g → StaysDecided c anyAction g := by
  intro h
  obtain ⟨g, hrun, hg⟩ := exists_runs_of_exec (G := anyAction) (dfirStep exampleConfig)
    (Engine.start oneRequest)
    (exampleDecision 0 (.reject (exampleReview .reject)) 8 ++
      exampleDecision 1 (.patch (exampleReview .fail)) 8)
    (p := fun g => decide (statusOf g.store.data 0 = some .rejected) &&
      (dfirStep exampleConfig g (.run 1 0)).any fun g' =>
        decide (statusOf g'.store.data 0 = some .failed)) (by decide +kernel)
  rw [Bool.and_eq_true, decide_eq_true_iff, Option.any_eq_true] at hg
  obtain ⟨hrejected, g', hstep, hfailed⟩ := hg
  obtain ⟨req, hreq, hstatus⟩ := Option.map_eq_some_iff.mp hrejected
  obtain ⟨req', hreq', hstatus'⟩ := Option.map_eq_some_iff.mp (of_decide_eq_true hfailed)
  obtain ⟨-, hsteps⟩ := h exampleConfig oneRequest consistent_oneRequest g hrun
  obtain ⟨after, hafter, heq⟩ := (hsteps _ g' trivial hstep).status_eq hreq (by rw [hstatus]; rfl)
  rw [hreq'] at hafter
  cases hafter
  rw [hstatus', hstatus] at heq
  cases heq

theorem decisions_of_completion :
    ∃ g, Runs (dfirStep exampleConfig) (WritesOnly StillAdmitted) (Engine.start oneRequest) g ∧
      statusOf g.store.data 0 = some .completed ∧
      StaysDecided exampleConfig (WritesOnly StillAdmitted) g := by
  obtain ⟨g, hrun, hg⟩ := exists_runs_of_exec (G := WritesOnly StillAdmitted)
    (dfirStep exampleConfig) (Engine.start oneRequest)
    (exampleDecision 0 .approve 8 ++ exampleDecision 1 (.patch (exampleReview .complete)) 9)
    (p := fun g => decide (statusOf g.store.data 0 = some .completed)) (by decide +kernel)
  exact ⟨g, hrun, of_decide_eq_true hg, decisions_of_runs exampleConfig consistent_oneRequest hrun⟩

end AssetInventory.DfirRequests

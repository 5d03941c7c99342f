import AssetInventory.Dfir.System
import AssetInventory.Lib.UnitOfWork

/-!
# What a dispatch leaves

A dispatch reads a good deal before it touches the row, then commits twice, and two layers of `except`
clauses write the row again.  Any of its statements can be refused.  The changes of a commit that is refused
are lost, the attributes of the row can no longer be read, and every clause of the worker reads `inv.id`.

* `dispatchDeepagent`: `_state_dispatch_deepagent` with its session, and `dispatchClauses`: the worker's
  clauses around it.
* `Records`: the session ends as `dispatchOutcome` says if the database takes what is written, and with an
  exception that the clauses do not catch if not.
* `WellLeft`: what a dispatch should leave.
* `wellLeft_iff`: it does so if and only if the request is sent and what is recorded of its answer can be
  stored.
-/

namespace AssetInventory

open PyJson PyTime DfirInvestigation
open UnitOfWork (Work Raised Constrained)

/-! ## What can be stored -/

/-- A text that a column can hold.  PostgreSQL has no NUL. -/
def storableText (s : String) : Bool := decide (Char.ofNat 0 ∉ s.toList)

mutual

/-- A value that a `JSONB` column can hold. -/
def storable : Json → Bool
  | .str s => storableText s
  | .arr xs => storableAll xs
  | .obj kvs => storableMembers kvs
  | _ => true

/-- The elements of an array can be stored. -/
def storableAll : List Json → Bool
  | [] => true
  | x :: xs => storable x && storableAll xs

/-- The entries of an object can be stored. -/
def storableMembers : List (String × Json) → Bool
  | [] => true
  | (k, x) :: kvs => storableText k && storable x && storableMembers kvs

end

/-- The columns that take texts from outside. -/
instance : Constrained DfirInvestigation where
  valid inv := inv.error.all storableText && inv.hermesResponse.all storable

/-! ## `_state_dispatch_deepagent` -/

/-- The statements before the request that are refused. -/
structure DispatchFaults where
  machine : Bool
  /-- One of those of `_resolve_target_platform`. -/
  targetPlatform : Bool
  llmConfig : Bool
  velociraptorConfig : Bool
  customArtifacts : Bool
  /-- The first commit. -/
  reserve : Bool

/-- Up to the first assignment. -/
def prepareDispatch (cfg : Settings) (env : DispatchEnv) (faults : DispatchFaults)
    (inv : DfirInvestigation) : Work DfirInvestigation (Except PyExc Unit) :=
  if truthy inv.velociraptorClientId = false then
    pure (.error (llmError "Investigation thiếu Velociraptor client_id"))
  else do
    Work.select faults.machine fun _ => ()
    Work.select faults.targetPlatform fun _ => ()
    match env.targetPlatform with
    | .error e => pure (.error e)
    | .ok _ => do
      Work.select faults.llmConfig fun _ => ()
      if env.llmRuntime = false then pure (.error (llmError "LLM runtime chưa được cấu hình"))
      else if truthy env.apiKey = false then pure (.error (llmError "LLM runtime thiếu API key"))
      else if cfg.deepagentEnabled = false ∨ cfg.deepagentApiKey = "" then
        pure (.error (llmError "DeepAgent chưa được bật hoặc chưa có service token"))
      else do
        Work.select faults.velociraptorConfig fun _ => ()
        match env.clientConfig with
        | none => pure (.error (llmError "Chưa upload api_client.yaml cho Velociraptor"))
        | some (.error e) => pure (.error e)
        | some (.ok _) => do
          Work.select faults.customArtifacts fun _ => ()
          pure env.customArtifacts

/-- Assign, commit, and end like this. -/
def leave (f : DfirInvestigation → DfirInvestigation) (result : Except DispatchExc Unit) :
    Work DfirInvestigation (Except DispatchExc Unit) := do
  Work.change f
  Work.commit false
  pure result

/-- The last `except` clause, when it has read `inv.external_job_id`. -/
def classifyException (later : Time) (e : PyExc) (isAfterPost : Bool) :
    Work DfirInvestigation (Except DispatchExc Unit) :=
  if isAfterPost then
    leave (dispatchUncertain [("kind", .str "post_request_exception"), ("error", .str (truncate 500 e.render))])
      (.error (.uncertain ("Post-POST exception: " ++ e.typeName)))
  else
    leave (dispatchFailed (truncate 2000 ("DeepAgent dispatch: " ++ e.render)) later)
      (.error (.failed ("DeepAgent dispatch: " ++ e.render)))

/-- The last `except` clause. -/
def unexpectedException (age : ℕ) (later : Time) (e : PyExc) :
    Work DfirInvestigation (Except DispatchExc Unit) := do
  Work.touch age
  let isAfterPost ← Work.peek fun inv => inv.externalJobId.isSome
  classifyException later e isAfterPost

/-- What the session raises, as an exception.  Its text is never recorded. -/
def sessionException : Raised → PyExc
  | .refused => ⟨"DBAPIError", ""⟩
  | .pendingRollback => ⟨"PendingRollbackError", ""⟩
  | .missingGreenlet => ⟨"MissingGreenlet", ""⟩
  | .other text => ⟨"Exception", text⟩

/-- A commit in the `try` block: if it is refused, the last clause catches that. -/
def leaveInTry (age : ℕ) (later : Time) (f : DfirInvestigation → DfirInvestigation)
    (result : Except DispatchExc Unit) : Work DfirInvestigation (Except DispatchExc Unit) :=
  Work.attempt (leave f result) fun e => unexpectedException age later (sessionException e)

/-- The `try` block from the answer to the request on, with its clauses, for the row as it is now. -/
def answerClauses (age : ℕ) (id : InvId) (reply : DispatchReply) :
    Work DfirInvestigation (Except DispatchExc Unit) :=
  match reply.answer with
  | .raised e =>
    if e.typeName ∈ ambiguousNetworkErrors then
      leave (dispatchUncertain [("kind", .str "network"), ("error", .str (truncate 500 e.render))])
        (.error (.uncertain (e.typeName ++ ": request có thể đã tới server.")))
    else unexpectedException age reply.later e
  | .response code statusError body =>
    if 200 ≤ code ∧ code < 300 then
      match body with
      | .error e =>
        leaveInTry age reply.later
          (dispatchUncertain [("kind", .str "response_body_json_decode_failed"),
            ("error", .str (truncate 500 e.render))])
          (.error (.uncertain ("Response body không phải JSON hợp lệ (" ++ e.typeName ++ "); " ++
            "request có thể đã tới server. Đã lưu dispatch_uncertain + reconcile job.")))
      | .ok body =>
        match body.entries? with
        | none => unexpectedException age reply.later (attributeError body)
        | some kvs =>
          if lookup "job_id" kvs ≠ some (.str (deepagentJobId id)) then
            leaveInTry age reply.later
              (dispatchFailed "DeepAgent trả về job ID không khớp investigation" reply.later)
              (.error (.failed "DeepAgent trả về job ID không khớp investigation"))
          else
            leaveInTry age reply.later (dispatchConfirmed id (getD kvs "status" .null)) (.ok ())
    else if 400 ≤ code ∧ code < 500 ∧ code ∉ [408, 429] then
      leave (dispatchFailed (truncate 2000
          ("DeepAgent dispatch 4xx: " ++ toString code ++ ": " ++ statusError)) reply.later)
        (.error (.failed ("DeepAgent dispatch 4xx: " ++ toString code)))
    else
      leave (dispatchUncertain [("status_code", .num code),
          ("error", .str (truncate 500 ("HTTPStatusError: " ++ statusError)))])
        (.error (.uncertain ("HTTP " ++ toString code ++ " ambiguous — request có thể đã tới server.")))

/-- From the answer to the request on. -/
def recordAnswer (id : InvId) (reply : DispatchReply) : Work DfirInvestigation (Except DispatchExc Unit) := do
  let age ← Work.stamp
  answerClauses age id reply

/-- `_state_dispatch_deepagent`. -/
def dispatchDeepagent (cfg : Settings) (id : InvId) (now : Time) (env : DispatchEnv) (faults : DispatchFaults)
    (reply : DispatchReply) (inv : DfirInvestigation) :
    Work DfirInvestigation (Except DispatchExc Unit) := do
  let prepared ← prepareDispatch cfg env faults inv
  match prepared with
  | .error e => pure (.error (.other e))
  | .ok _ => do
    Work.change (dispatchReserve id now)
    Work.commit faults.reserve
    recordAnswer id reply

/-! ## The worker around it -/

/-- What follows on the result of a dispatch. -/
def clauseOf (later : Time) : Except DispatchExc Unit → Work DfirInvestigation Unit
  | .ok _ => pure ()
  | .error (.uncertain _) => pure ()
  | .error (.failed m) => do
    let failed ← Work.peek fun inv => decide (inv.status = .failed)
    if failed then pure ()
    else do
      Work.change (workerFail later (DispatchExc.failed m).toPyExc)
      Work.commit false
  | .error (.other e) => do
    Work.change (workerFail later e)
    Work.commit false

/-- The `except` clauses of `run_pending_investigations` around a dispatch.  All of them read `inv.id`, and so
does the line after the call. -/
def dispatchClauses (later : Time) (call : Work DfirInvestigation (Except DispatchExc Unit)) :
    Work DfirInvestigation Unit := do
  let age ← Work.stamp
  let result ← Work.attempt call fun e => pure (.error (.other (sessionException e)))
  Work.touch age
  clauseOf later result

/-- What happens to a dispatch. -/
structure Dispatching where
  settings : Settings
  env : DispatchEnv
  faults : DispatchFaults
  now : Time
  reply : DispatchReply
  /-- When the worker has caught an exception. -/
  later : Time

/-- A dispatch of a row by the worker. -/
def Dispatching.run (d : Dispatching) (id : InvId) (inv : DfirInvestigation) :
    Except Raised Unit × UnitOfWork.Session DfirInvestigation :=
  dispatchClauses d.later (dispatchDeepagent d.settings id d.now d.env d.faults d.reply inv)
    (UnitOfWork.Session.start inv)

/-! ## What it should leave -/

/-- The request may have reached DeepAgent. -/
def MayHaveArrived : HttpAnswer → Prop
  | .raised _ => True
  | .response code _ body =>
    (200 ≤ code ∧ code < 300 ∧ ∀ x ∈ body.toOption, x.entries? = none) ∨ (300 ≤ code ∧ code < 400) ∨
      code = 408 ∨ code = 429 ∨ 500 ≤ code

/-- The answer names the job of the investigation. -/
def Confirms (id : InvId) : HttpAnswer → Prop
  | .raised _ => False
  | .response code _ body => 200 ≤ code ∧ code < 300 ∧
    ∃ kvs, body = .ok (.obj kvs) ∧ lookup "job_id" kvs = some (.str (deepagentJobId id))

/-- None of the statements that only read is refused. -/
def DispatchFaults.ReadsGranted (faults : DispatchFaults) : Prop :=
  faults.machine = false ∧ faults.targetPlatform = false ∧ faults.llmConfig = false ∧
    faults.velociraptorConfig = false ∧ faults.customArtifacts = false

/-- The request is sent: nothing before it is refused or missing. -/
structure Dispatching.Sends (d : Dispatching) (inv : DfirInvestigation) : Prop where
  prepared : dispatchPrepare d.settings d.env inv = .ok ()
  reads : d.faults.ReadsGranted
  reserve : d.faults.reserve = false

/-- **What a dispatch should leave.** -/
structure Dispatching.WellLeft (d : Dispatching) (id : InvId) (inv : DfirInvestigation) : Prop where
  /-- No exception escapes the loop. -/
  caught : (d.run id inv).1 = .ok ()
  failed : (d.run id inv).2.committed.status = .failed ↔ (d.run id inv).2.committed.completedAt.isSome = true
  dispatchFailed : (d.run id inv).2.committed.status = .failed →
    (d.run id inv).2.committed.hermesStatus = some "dispatch_failed"
  uncertain : d.Sends inv → MayHaveArrived d.reply.answer →
    (d.run id inv).2.committed.status = .analyzing ∧
      (d.run id inv).2.committed.hermesStatus = some "dispatch_uncertain" ∧
      (d.run id inv).2.committed.externalJobId.isSome = true
  confirmed : d.Sends inv → Confirms id d.reply.answer →
    (d.run id inv).2.committed.status = .analyzing ∧
      (d.run id inv).2.committed.hermesStatus = some "dispatched"

/-- A row as `claim_deepagent_dispatches` returns it. -/
structure Claimed (id : InvId) (inv : DfirInvestigation) : Prop where
  pending : inv.status = .pending
  reserved : inv.externalJobId = some (deepagentJobId id)
  uncompleted : inv.completedAt = none
  /-- Only a row that has failed has this status. -/
  notFailed : inv.hermesStatus ≠ some "dispatch_failed"
  stored : Constrained.valid inv = true
  storedId : storableText id = true

/-- What is recorded of an answer can be stored. -/
def storableAnswer (id : InvId) : HttpAnswer → Bool
  | .raised e => storableText (truncate 500 e.render)
  | .response code statusError body =>
    if 200 ≤ code ∧ code < 300 then
      match body with
      | .error e => storableText (truncate 500 e.render)
      | .ok (.obj kvs) =>
        decide (lookup "job_id" kvs ≠ some (.str (deepagentJobId id))) || storable (getD kvs "status" .null)
      | .ok _ => true
    else if 400 ≤ code ∧ code < 500 ∧ code ∉ [408, 429] then
      storableText (truncate 2000 ("DeepAgent dispatch 4xx: " ++ toString code ++ ": " ++ statusError))
    else storableText (truncate 500 ("HTTPStatusError: " ++ statusError))

/-! ## Commits -/

section Commits

variable {r : DfirInvestigation} {f : DfirInvestigation → DfirInvestigation}
  {result : Except DispatchExc Unit} {age : ℕ} {later : Time}

theorem leave_stored (h : Constrained.valid (f r) = true) :
    leave f result (UnitOfWork.Session.start r) = (.ok result, UnitOfWork.Session.start (f r)) := by
  have hcommit : Work.commit false (⟨r, f r, true, .active, 0⟩ : UnitOfWork.Session DfirInvestigation) =
      (.ok (), UnitOfWork.Session.start (f r)) := Work.commit_active rfl h
  exact (Work.bind_ok rfl).trans (Work.bind_ok hcommit)

theorem leave_refused (h : Constrained.valid (f r) = false) :
    leave f result (UnitOfWork.Session.start r) =
      (.error .refused, ⟨r, r, false, .inactive, 1⟩) := by
  have hcommit : Work.commit false (⟨r, f r, true, .active, 0⟩ : UnitOfWork.Session DfirInvestigation) =
      (.error .refused, ⟨r, r, false, .inactive, 1⟩) := Work.commit_refused rfl rfl (.inr h)
  exact (Work.bind_ok rfl).trans (Work.bind_error hcommit)

/-- The result that the exception of an outcome stands for. -/
def resultOf : Option DispatchExc → Except DispatchExc Unit
  | none => .ok ()
  | some e => .error e

/-- A session that ends as an outcome says, if what is to be written can be stored; if not, it has lost the
row. -/
structure Records (w : Work DfirInvestigation (Except DispatchExc Unit)) (r : DfirInvestigation)
    (o : Outcome DispatchExc) : Prop where
  stored : Constrained.valid o.session.cur = true →
    w (UnitOfWork.Session.start r) = (.ok (resultOf o.raised), UnitOfWork.Session.start o.session.cur)
  lost : Constrained.valid o.session.cur = false →
    ∃ e, w (UnitOfWork.Session.start r) = (.error e, ⟨r, r, false, .inactive, 1⟩)

theorem records_leave (exc : Option DispatchExc) :
    Records (leave f (resultOf exc)) r ⟨((Orm.Session.load r).set f).commit, exc⟩ where
  stored h := leave_stored h
  lost h := ⟨.refused, leave_refused h⟩

/-- In the `try` block the last clause looks for the row, and does not find it either. -/
theorem records_leaveInTry (exc : Option DispatchExc) :
    Records (leaveInTry 0 later f (resultOf exc)) r ⟨((Orm.Session.load r).set f).commit, exc⟩ where
  stored h := Work.attempt_ok (leave_stored h)
  lost h := ⟨.missingGreenlet, (Work.attempt_error (leave_refused h)).trans (Work.bind_error rfl)⟩

theorem Records.congr {w v : Work DfirInvestigation (Except DispatchExc Unit)} {o : Outcome DispatchExc}
    (h : Records v r o) (hsame : w (UnitOfWork.Session.start r) = v (UnitOfWork.Session.start r)) :
    Records w r o where
  stored hv := hsame.trans (h.stored hv)
  lost hv := hsame ▸ h.lost hv

theorem records_unexpectedException (e : PyExc) :
    Records (unexpectedException 0 later e) r (dispatchUnexpected later e (Orm.Session.load r)) := by
  have hsame : unexpectedException 0 later e (UnitOfWork.Session.start r) =
      classifyException later e r.externalJobId.isSome (UnitOfWork.Session.start r) := rfl
  refine Records.congr ?_ hsame
  rw [classifyException, dispatchUnexpected, Orm.Session.cur_load]
  split
  · exact records_leave (some (.uncertain _))
  · exact records_leave (some (.failed _))

/-- **The answer is recorded as `dispatchOutcome` says.** -/
theorem records_recordAnswer (id : InvId) (reply : DispatchReply) :
    Records (recordAnswer id reply) r (dispatchOutcome id reply r) := by
  have hsame : recordAnswer id reply (UnitOfWork.Session.start r) =
      answerClauses 0 id reply (UnitOfWork.Session.start r) := rfl
  refine Records.congr ?_ hsame
  rw [answerClauses, dispatchOutcome]
  cases reply.answer with
  | raised e =>
    dsimp only
    split
    · exact records_leave (some (.uncertain _))
    · exact records_unexpectedException e
  | response code statusError body =>
    dsimp only
    split
    · cases body with
      | error e => exact records_leaveInTry (some (.uncertain _))
      | ok body =>
        dsimp only
        cases body.entries? with
        | none => exact records_unexpectedException _
        | some kvs =>
          dsimp only
          split
          · exact records_leaveInTry (some (.failed _))
          · exact records_leaveInTry none
    · split
      · exact records_leave (some (.failed _))
      · exact records_leave (some (.uncertain _))

end Commits

/-! ## What is recorded -/

section Storable

variable {r : DfirInvestigation} {id : InvId}

theorem storableText_append (s t : String) :
    storableText (s ++ t) = (storableText s && storableText t) := by
  simp [storableText, String.toList_append]

theorem valid_dispatchUncertain (h : Constrained.valid r = true) (details : List (String × Json)) :
    Constrained.valid (dispatchUncertain details r) = storableMembers details := by
  have herror : r.error.all storableText = true := (Bool.and_eq_true _ _ ▸ h).1
  have hreason : storableText "reason" = true := by simp [storableText]
  have houtcome : storableText "ambiguous_dispatch_outcome" = true := by simp [storableText]
  show (r.error.all storableText && storable (.obj _)) = _
  rw [herror, storable, storableMembers, storable, hreason, houtcome]
  rfl

theorem valid_dispatchFailed (h : Constrained.valid r = true) (message : String) (later : Time) :
    Constrained.valid (dispatchFailed message later r) = storableText message := by
  have hresponse : r.hermesResponse.all storable = true := (Bool.and_eq_true _ _ ▸ h).2
  show (storableText message && r.hermesResponse.all storable) = _
  rw [hresponse, Bool.and_true]

theorem valid_dispatchConfirmed (h : Constrained.valid r = true) (hid : storableText id = true)
    (status : Json) : Constrained.valid (dispatchConfirmed id status r) = storable status := by
  have herror : r.error.all storableText = true := (Bool.and_eq_true _ _ ▸ h).1
  have hjob : storableText (deepagentJobId id) = true := by
    rw [deepagentJobId, storableText_append, hid]
    simp [storableText]
  have hkeys : storableText "job_id" = true ∧ storableText "status" = true := by simp [storableText]
  show (r.error.all storableText && storable (.obj _)) = _
  rw [herror, storable, storableMembers, storableMembers, storable, hkeys.1, hkeys.2, hjob, storableMembers]
  simp

theorem storableMembers_kind {kind : String} (hkind : storableText kind = true) (text : String) :
    storableMembers [("kind", .str kind), ("error", .str text)] = storableText text := by
  have hkeys : storableText "kind" = true ∧ storableText "error" = true := by simp [storableText]
  simp [storableMembers, storable, hkeys, hkind]

theorem typeName_mem (x : Json) : x.typeName ∈ ["NoneType", "bool", "int", "float", "str", "list", "dict"] := by
  cases x with
  | num q =>
    rw [Json.typeName]
    split
    · simp
    · simp
  | _ => simp [Json.typeName]

theorem storableText_truncate {s : String} (h : storableText s = true) (n : ℕ) :
    storableText (truncate n s) = true := by
  have hnot : Char.ofNat 0 ∉ s.toList := of_decide_eq_true h
  rw [truncate, storableText, String.toList_ofList]
  exact decide_eq_true fun hmem => hnot (List.mem_of_mem_take hmem)

theorem storableText_attributeError (x : Json) : storableText (truncate 500 (attributeError x).render) = true := by
  have hnames : ∀ name ∈ ["NoneType", "bool", "int", "float", "str", "list", "dict"],
      storableText (PyExc.mk "AttributeError" ("'" ++ name ++ "' object has no attribute 'get'")).render = true := by
    simp [PyExc.render, storableText]
  exact storableText_truncate (hnames _ (typeName_mem x)) 500

/-- **What is recorded can be stored**, if what comes from outside can. -/
theorem valid_dispatchOutcome (h : Constrained.valid r = true) (hid : storableText id = true)
    (hreserved : r.externalJobId.isSome = true) (reply : DispatchReply) :
    Constrained.valid (dispatchOutcome id reply r).session.cur = storableAnswer id reply.answer := by
  have hunexpected : ∀ e, Constrained.valid (dispatchUnexpected reply.later e (Orm.Session.load r)).session.cur =
      storableText (truncate 500 e.render) := by
    intro e
    rw [dispatchUnexpected, Orm.Session.cur_load, if_pos hreserved]
    exact (valid_dispatchUncertain h _).trans (storableMembers_kind (by simp [storableText]) _)
  rw [dispatchOutcome]
  cases reply.answer with
  | raised e =>
    dsimp only [storableAnswer]
    split
    · exact (valid_dispatchUncertain h _).trans (storableMembers_kind (by simp [storableText]) _)
    · exact hunexpected e
  | response code statusError body =>
    dsimp only [storableAnswer]
    split
    · cases body with
      | error e => exact (valid_dispatchUncertain h _).trans (storableMembers_kind (by simp [storableText]) _)
      | ok body =>
        dsimp only
        cases body with
        | obj kvs =>
          dsimp only [Json.entries?]
          split
          · rename_i hother
            rw [decide_eq_true hother, Bool.true_or]
            exact (valid_dispatchFailed h _ _).trans (by simp [storableText])
          · rename_i hother
            rw [decide_eq_false hother, Bool.false_or]
            exact valid_dispatchConfirmed h hid _
        | _ => exact (hunexpected _).trans (storableText_attributeError _)
    · split
      · exact valid_dispatchFailed h _ _
      · refine (valid_dispatchUncertain h _).trans ?_
        have hkeys : storableText "status_code" = true ∧ storableText "error" = true := by simp [storableText]
        simp [storableMembers, storable, hkeys]

end Storable

/-! ## Before the request -/

section Prepare

variable {cfg : Settings} {env : DispatchEnv} {faults : DispatchFaults} {r : DfirInvestigation}

/-- A session in which a statement was refused. -/
def abortedAt (r : DfirInvestigation) : UnitOfWork.Session DfirInvestigation := ⟨r, r, false, .aborted, 0⟩

/-- Code that has this result, if the reads that it depends on are granted, or ends at a refused one. -/
def Prepares (w : Work DfirInvestigation (Except PyExc Unit)) (r : DfirInvestigation)
    (result : Except PyExc Unit) (granted : Prop) : Prop :=
  w (UnitOfWork.Session.start r) = (.ok result, UnitOfWork.Session.start r) ∧ (result = .ok () → granted) ∨
    w (UnitOfWork.Session.start r) = (.error .refused, abortedAt r) ∧ ¬ granted

theorem prepares_error (e : PyExc) (granted : Prop) : Prepares (pure (.error e)) r (.error e) granted :=
  .inl ⟨rfl, fun h => by cases h⟩

theorem prepares_select {w : Work DfirInvestigation (Except PyExc Unit)} {result : Except PyExc Unit}
    {granted : Prop} {fault : Bool} (h : Prepares w r result granted) :
    Prepares (do Work.select fault fun _ => (); w) r result (fault = false ∧ granted) := by
  cases fault with
  | true => exact .inr ⟨rfl, by simp⟩
  | false =>
    have hrun : (do Work.select false fun _ => (); w : Work DfirInvestigation (Except PyExc Unit))
        (UnitOfWork.Session.start r) = w (UnitOfWork.Session.start r) := rfl
    rcases h with ⟨hw, hgranted⟩ | ⟨hw, hgranted⟩
    · exact .inl ⟨hrun.trans hw, fun hok => ⟨rfl, hgranted hok⟩⟩
    · exact .inr ⟨hrun.trans hw, fun hboth => hgranted hboth.2⟩

/-- **What is found before the request** is what `dispatchPrepare` says. -/
theorem prepares_prepareDispatch :
    Prepares (prepareDispatch cfg env faults r) r (dispatchPrepare cfg env r) faults.ReadsGranted := by
  unfold prepareDispatch dispatchPrepare
  by_cases hclient : truthy r.velociraptorClientId = false
  · rw [if_pos hclient, if_pos hclient]
    exact prepares_error _ _
  rw [if_neg hclient, if_neg hclient]
  refine prepares_select (prepares_select ?_)
  cases env.targetPlatform with
  | error e => exact prepares_error _ _
  | ok platform =>
    refine prepares_select ?_
    by_cases hruntime : env.llmRuntime = false
    · simp only [hruntime, if_true]
      exact prepares_error _ _
    by_cases hkey : truthy env.apiKey = false
    · simp only [hruntime, hkey, if_true]
      exact prepares_error _ _
    by_cases hservice : cfg.deepagentEnabled = false ∨ cfg.deepagentApiKey = ""
    · simp only [hruntime, hkey, hservice, if_true]
      exact prepares_error _ _
    simp only [hruntime, hkey, hservice, if_false]
    refine prepares_select ?_
    cases env.clientConfig with
    | none => exact prepares_error _ _
    | some config =>
      cases config with
      | error e => exact prepares_error _ _
      | ok _ =>
        have hlast : Prepares (pure env.customArtifacts) r env.customArtifacts True :=
          .inl ⟨rfl, fun _ => trivial⟩
        have hread : Prepares (do Work.select faults.customArtifacts fun _ => (); pure env.customArtifacts) r
            env.customArtifacts (faults.customArtifacts = false ∧ True) := prepares_select hlast
        rw [and_true] at hread
        exact hread

end Prepare

/-! ## What the worker leaves -/

section Worker

variable {d : Dispatching} {id : InvId} {inv : DfirInvestigation} {r c : DfirInvestigation}

variable {call : Work DfirInvestigation (Except DispatchExc Unit)} {later : Time}

theorem dispatchClauses_ok {result : Except DispatchExc Unit} {s : UnitOfWork.Session DfirInvestigation}
    (hcall : call (UnitOfWork.Session.start r) = (.ok result, s)) (hage : s.age = 0) :
    dispatchClauses later call (UnitOfWork.Session.start r) = clauseOf later result s :=
  (Work.bind_ok rfl).trans ((Work.bind_ok (Work.attempt_ok hcall)).trans (Work.bind_ok (if_pos hage)))

theorem dispatchClauses_error {e : Raised} {s : UnitOfWork.Session DfirInvestigation}
    (hcall : call (UnitOfWork.Session.start r) = (.error e, s)) (hage : s.age = 0) :
    dispatchClauses later call (UnitOfWork.Session.start r) =
      clauseOf later (.error (.other (sessionException e))) s :=
  (Work.bind_ok rfl).trans ((Work.bind_ok (Work.attempt_error hcall)).trans (Work.bind_ok (if_pos hage)))

theorem dispatchClauses_lost {e : Raised}
    (hcall : call (UnitOfWork.Session.start r) = (.error e, ⟨c, c, false, .inactive, 1⟩)) :
    (dispatchClauses later call (UnitOfWork.Session.start r)).1 ≠ .ok () := by
  have hrun : dispatchClauses later call (UnitOfWork.Session.start r) =
      (.error .missingGreenlet, ⟨c, c, false, .inactive, 1⟩) :=
    (Work.bind_ok rfl).trans ((Work.bind_ok (Work.attempt_error hcall)).trans (Work.bind_error rfl))
  rw [hrun]
  exact fun h => by cases h

/-- An exception that the clauses do not know fails the row, if its text can be stored. -/
theorem clauseOf_other (later : Time) (e : PyExc) (r : DfirInvestigation) :
    clauseOf later (.error (.other e)) (UnitOfWork.Session.start r) =
        (.ok (), UnitOfWork.Session.start (workerFail later e r)) ∨
      (clauseOf later (.error (.other e)) (UnitOfWork.Session.start r)).1 ≠ .ok () := by
  have hrun : clauseOf later (.error (.other e)) (UnitOfWork.Session.start r) =
      Work.commit false ⟨r, workerFail later e r, true, .active, 0⟩ := by
    rw [clauseOf]
    exact Work.bind_ok rfl
  rw [hrun]
  cases hvalid : Constrained.valid (workerFail later e r) with
  | true => exact .inl (Work.commit_active rfl hvalid)
  | false =>
    have hcommit : Work.commit false (⟨r, workerFail later e r, true, .active, 0⟩ :
        UnitOfWork.Session DfirInvestigation) = (.error .refused, ⟨r, r, false, .inactive, 1⟩) :=
      Work.commit_refused rfl rfl (.inr hvalid)
    rw [hcommit]
    exact .inr fun h => by cases h

theorem clauseOf_aborted (later : Time) (e : PyExc) (r : DfirInvestigation) :
    (clauseOf later (.error (.other e)) (abortedAt r)).1 ≠ .ok () := by
  have hrun : clauseOf later (.error (.other e)) (abortedAt r) =
      Work.commit false ⟨r, workerFail later e r, true, .aborted, 0⟩ := by
    rw [clauseOf]
    exact Work.bind_ok rfl
  have hcommit : Work.commit false (⟨r, workerFail later e r, true, .aborted, 0⟩ :
      UnitOfWork.Session DfirInvestigation) = (.error .refused, ⟨r, r, false, .inactive, 1⟩) :=
    Work.bind_error (Work.flush_aborted false rfl rfl)
  rw [hrun, hcommit]
  exact fun h => by cases h

theorem clauseOf_resultOf {exc : Option DispatchExc}
    (hother : ∀ e, exc ≠ some (.other e)) (hfailed : ∀ m, exc = some (.failed m) → c.status = .failed) :
    clauseOf later (resultOf exc) (UnitOfWork.Session.start c) = (.ok (), UnitOfWork.Session.start c) := by
  cases exc with
  | none => rfl
  | some e =>
    cases e with
    | uncertain m => rfl
    | failed m =>
      have hrun : ∀ failed : Bool, failed = decide (c.status = .failed) →
          clauseOf later (.error (.failed m)) (UnitOfWork.Session.start c) =
            (if failed then pure () else do
              Work.change (workerFail later (DispatchExc.failed m).toPyExc)
              Work.commit false : Work DfirInvestigation Unit) (UnitOfWork.Session.start c) := by
        rintro failed rfl
        rfl
      exact hrun true (decide_eq_true (hfailed m rfl)).symm
    | other e => exact absurd rfl (hother e)

theorem dispatchOutcome_uncertain (id : InvId) {reply : DispatchReply}
    (hreserved : r.externalJobId.isSome = true) (h : MayHaveArrived reply.answer) :
    ∃ details, (dispatchOutcome id reply r).session.cur = dispatchUncertain details r := by
  have hunexpected : ∀ e, ∃ details,
      (dispatchUnexpected reply.later e (Orm.Session.load r)).session.cur = dispatchUncertain details r := by
    intro e
    rw [dispatchUnexpected, Orm.Session.cur_load, if_pos hreserved]
    exact ⟨_, rfl⟩
  rw [dispatchOutcome]
  cases hanswer : reply.answer with
  | raised e =>
    dsimp only
    split
    · exact ⟨_, rfl⟩
    · exact hunexpected e
  | response code statusError body =>
    rw [hanswer] at h
    dsimp only
    split
    · rename_i hcode
      obtain ⟨-, -, hbody⟩ | ⟨h300, -⟩ | h408 | h429 | h500 := h
      · cases body with
        | error e => exact ⟨_, rfl⟩
        | ok body =>
          dsimp only
          rw [hbody body rfl]
          exact hunexpected _
      all_goals omega
    · split
      · rename_i hcode hdefinitive
        simp only [List.mem_cons, List.not_mem_nil, or_false, not_or] at hdefinitive
        obtain ⟨h200, h300, -⟩ | ⟨h300, h400⟩ | h408 | h429 | h500 := h <;> omega
      · exact ⟨_, rfl⟩

theorem dispatchOutcome_confirmed {reply : DispatchReply} (h : Confirms id reply.answer) :
    ∃ status, (dispatchOutcome id reply r).session.cur = dispatchConfirmed id status r := by
  rw [dispatchOutcome]
  cases hanswer : reply.answer with
  | raised e =>
    rw [hanswer] at h
    exact h.elim
  | response code statusError body =>
    rw [hanswer] at h
    obtain ⟨h200, h300, kvs, rfl, hjob⟩ := h
    dsimp only [Json.entries?]
    rw [if_pos ⟨h200, h300⟩, if_neg (not_not.mpr hjob)]
    exact ⟨_, rfl⟩

theorem dispatchDeepagent_sent (hsends : d.Sends inv) (hstored : Constrained.valid inv = true) :
    dispatchDeepagent d.settings id d.now d.env d.faults d.reply inv (UnitOfWork.Session.start inv) =
      recordAnswer id d.reply (UnitOfWork.Session.start (dispatchReserve id d.now inv)) := by
  obtain ⟨hprep, hreads, hreserve⟩ := hsends
  have hprepare : prepareDispatch d.settings d.env d.faults inv (UnitOfWork.Session.start inv) =
      (.ok (.ok ()), UnitOfWork.Session.start inv) := by
    have hprepares : Prepares (prepareDispatch d.settings d.env d.faults inv) inv
        (dispatchPrepare d.settings d.env inv) d.faults.ReadsGranted := prepares_prepareDispatch
    rcases hprepares with ⟨hrun, -⟩ | ⟨-, hnot⟩
    · rw [hrun, hprep]
    · exact absurd hreads hnot
  have hcommit : Work.commit d.faults.reserve
      (⟨inv, dispatchReserve id d.now inv, true, .active, 0⟩ : UnitOfWork.Session DfirInvestigation) =
        (.ok (), UnitOfWork.Session.start (dispatchReserve id d.now inv)) := by
    rw [hreserve]
    exact Work.commit_active rfl hstored
  exact (Work.bind_ok hprepare).trans ((Work.bind_ok rfl).trans (Work.bind_ok hcommit))

/-- A dispatch that is not sent ends in an exception, or has failed the row without a word in its hermes
status. -/
theorem run_of_not_sends (id : InvId) (hnot : ¬ d.Sends inv) :
    (∃ e, d.run id inv = (.ok (), UnitOfWork.Session.start (workerFail d.later e inv))) ∨
      (d.run id inv).1 ≠ .ok () := by
  have hprepares : Prepares (prepareDispatch d.settings d.env d.faults inv) inv
      (dispatchPrepare d.settings d.env inv) d.faults.ReadsGranted := prepares_prepareDispatch
  rcases hprepares with ⟨hrun, hgranted⟩ | ⟨hrun, -⟩
  · cases hprep : dispatchPrepare d.settings d.env inv with
    | error e =>
      rw [hprep] at hrun
      have hcall : dispatchDeepagent d.settings id d.now d.env d.faults d.reply inv
          (UnitOfWork.Session.start inv) = (.ok (.error (.other e)), UnitOfWork.Session.start inv) :=
        Work.bind_ok hrun
      rw [Dispatching.run, dispatchClauses_ok hcall rfl]
      exact (clauseOf_other _ _ _).imp_left fun hfails => ⟨e, hfails⟩
    | ok _ =>
      rw [hprep] at hrun hgranted
      have hreserve : d.faults.reserve = true := by
        by_contra hreserve
        exact hnot ⟨hprep, hgranted rfl, by simpa using hreserve⟩
      have hcommit : Work.commit d.faults.reserve
          (⟨inv, dispatchReserve id d.now inv, true, .active, 0⟩ : UnitOfWork.Session DfirInvestigation) =
            (.error .refused, ⟨inv, inv, false, .inactive, 1⟩) :=
        Work.commit_refused rfl rfl (.inl hreserve)
      exact .inr (dispatchClauses_lost
        ((Work.bind_ok hrun).trans ((Work.bind_ok rfl).trans (Work.bind_error hcommit))))
  · have hcall : dispatchDeepagent d.settings id d.now d.env d.faults d.reply inv
        (UnitOfWork.Session.start inv) = (.error .refused, abortedAt inv) := Work.bind_error hrun
    rw [Dispatching.run, dispatchClauses_error hcall rfl]
    exact .inr (clauseOf_aborted _ _ _)

/-- A dispatch that is sent leaves the row of its outcome, if what is recorded can be stored. -/
theorem run_of_sends (hclaimed : Claimed id inv) (hsends : d.Sends inv)
    (hanswer : storableAnswer id d.reply.answer = true) :
    d.run id inv = (.ok (), UnitOfWork.Session.start
      (dispatchOutcome id d.reply (dispatchReserve id d.now inv)).session.cur) := by
  have hvalid := valid_dispatchOutcome (r := dispatchReserve id d.now inv) hclaimed.stored hclaimed.storedId rfl
    d.reply
  have hcall := (dispatchDeepagent_sent hsends hclaimed.stored).trans
    ((records_recordAnswer id d.reply).stored (hvalid.trans hanswer))
  obtain ⟨c, hc, hcases⟩ := dispatchOutcome_cases id d.reply (dispatchReserve id d.now inv)
  refine (dispatchClauses_ok hcall rfl).trans (clauseOf_resultOf (fun e he => ?_) fun m hm => ?_)
  · rcases hcases with ⟨_, -, hraised⟩ | ⟨_, _, -, hraised⟩ | ⟨_, _, -, hraised⟩
    all_goals
      rw [hraised] at he
      cases he
  · rcases hcases with ⟨_, -, hraised⟩ | ⟨_, _, -, hraised⟩ | ⟨_, _, hfails, -⟩
    · rw [hraised] at hm
      cases hm
    · rw [hraised] at hm
      cases hm
    · rw [hc, hfails]
      rfl

/-- A dispatch that is sent ends in an exception, if what is recorded cannot be stored. -/
theorem escapes_of_sends (hclaimed : Claimed id inv) (hsends : d.Sends inv)
    (hanswer : storableAnswer id d.reply.answer = false) : (d.run id inv).1 ≠ .ok () := by
  have hvalid := valid_dispatchOutcome (r := dispatchReserve id d.now inv) hclaimed.stored hclaimed.storedId rfl
    d.reply
  obtain ⟨e, hlost⟩ := (records_recordAnswer id d.reply).lost (hvalid.trans hanswer)
  exact dispatchClauses_lost ((dispatchDeepagent_sent hsends hclaimed.stored).trans hlost)

theorem dispatchOutcome_settles {inv : DfirInvestigation} (huncompleted : inv.completedAt = none)
    (id : InvId) (reply : DispatchReply) (now : Time) :
    let c := (dispatchOutcome id reply (dispatchReserve id now inv)).session.cur
    c.status = .analyzing ∧ c.completedAt = none ∨
      c.status = .failed ∧ c.completedAt.isSome = true ∧ c.hermesStatus = some "dispatch_failed" := by
  obtain ⟨c, hc, hcases⟩ := dispatchOutcome_cases id reply (dispatchReserve id now inv)
  rw [hc]
  rcases hcases with ⟨_, rfl, -⟩ | ⟨_, _, rfl, -⟩ | ⟨_, _, rfl, -⟩
  · exact .inl ⟨rfl, huncompleted⟩
  · exact .inl ⟨rfl, huncompleted⟩
  · exact .inr ⟨rfl, rfl, rfl⟩

/-- **When a dispatch leaves the row as it should.** -/
theorem wellLeft_iff (hclaimed : Claimed id inv) :
    d.WellLeft id inv ↔ d.Sends inv ∧ storableAnswer id d.reply.answer = true := by
  constructor
  · intro h
    by_cases hsends : d.Sends inv
    · refine ⟨hsends, ?_⟩
      by_contra hanswer
      exact escapes_of_sends hclaimed hsends (by simpa using hanswer) h.caught
    · rcases run_of_not_sends id hsends with ⟨e, hrun⟩ | hescapes
      · have hfailed := h.dispatchFailed (by rw [hrun]; rfl)
        rw [hrun] at hfailed
        exact absurd hfailed hclaimed.notFailed
      · exact absurd h.caught hescapes
  · rintro ⟨hsends, hanswer⟩
    have hrun := run_of_sends hclaimed hsends hanswer
    have hsettles := dispatchOutcome_settles hclaimed.uncompleted id d.reply d.now
    dsimp only at hsettles
    constructor
    · rw [hrun]
    · rw [hrun]
      rcases hsettles with ⟨hstatus, hnone⟩ | ⟨hstatus, hsome, -⟩
      · simp [UnitOfWork.Session.start, hstatus, hnone]
      · simp [UnitOfWork.Session.start, hstatus, hsome]
    · rw [hrun]
      intro hfailed
      rcases hsettles with ⟨hstatus, -⟩ | ⟨-, -, hhermes⟩
      · cases hstatus.symm.trans hfailed
      · exact hhermes
    · intro _ harrived
      obtain ⟨details, hdetails⟩ :=
        dispatchOutcome_uncertain id (r := dispatchReserve id d.now inv) rfl harrived
      rw [hrun, hdetails]
      exact ⟨rfl, rfl, rfl⟩
    · intro _ hconfirms
      obtain ⟨status, hstatus⟩ := dispatchOutcome_confirmed (r := dispatchReserve id d.now inv) hconfirms
      rw [hrun, hstatus]
      exact ⟨rfl, rfl⟩

end Worker

/-! ## A dispatch without a client configuration -/

theorem claimed_newInvestigation (cfg : Settings) (now : Time) (clientId : Option String) (req : CreateRequest)
    (orchestrator : Option Orchestrator) {id : InvId} (hid : storableText id = true) :
    Claimed id (reserveJobId id (newInvestigation cfg now clientId req orchestrator)) where
  pending := rfl
  reserved := rfl
  uncompleted := rfl
  notFailed h := by cases h
  stored := rfl
  storedId := hid

/-- A new row, claimed. -/
def sampleClaimed : DfirInvestigation :=
  reserveJobId "1" (newInvestigation (sampleSettings 4) 0 (some "C.1") ⟨"machine-1", none, none, "admin", none⟩
    (some .deepagent))

/-- A dispatch with nothing refused. -/
def sampleDispatching (clientConfig : Option (Except PyExc String)) (answer : HttpAnswer) : Dispatching where
  settings := sampleSettings 4
  env := ⟨.ok "windows", true, some "key", clientConfig, .ok ()⟩
  faults := ⟨false, false, false, false, false, false⟩
  now := 0
  reply := ⟨answer, 0⟩
  later := 0

/-- **Nothing says that the dispatch has failed** when no client configuration was uploaded: the worker fails
the row and leaves its hermes status as it was. -/
theorem unprepared_dispatch_fails_silently :
    ¬ ∀ (d : Dispatching) (id : InvId) (inv : DfirInvestigation), Claimed id inv → d.WellLeft id inv := by
  intro h
  have hclaimed : Claimed "1" sampleClaimed := claimed_newInvestigation _ _ _ _ _ (by simp [storableText])
  have hleft := h (sampleDispatching none readTimeout) "1" sampleClaimed hclaimed
  have hprepared : dispatchPrepare (sampleSettings 4) (sampleDispatching none readTimeout).env sampleClaimed =
      .error (llmError "Chưa upload api_client.yaml cho Velociraptor") := rfl
  have hnot : ¬ (sampleDispatching none readTimeout).Sends sampleClaimed := fun hsends => by
    cases hprepared.symm.trans hsends.prepared
  rcases run_of_not_sends "1" hnot with ⟨e, hrun⟩ | hescapes
  · have hfailed := hleft.dispatchFailed (by rw [hrun]; rfl)
    rw [hrun] at hfailed
    cases hfailed
  · exact hescapes hleft.caught

theorem wellLeft_iff_readTimeout :
    (sampleDispatching (some (.ok "yaml")) readTimeout).WellLeft "1" sampleClaimed ↔
      (sampleDispatching (some (.ok "yaml")) readTimeout).Sends sampleClaimed ∧
        storableAnswer "1" readTimeout = true :=
  wellLeft_iff (claimed_newInvestigation _ _ _ _ _ (by simp [storableText]))

end AssetInventory

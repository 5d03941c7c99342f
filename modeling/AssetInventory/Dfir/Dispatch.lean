import AssetInventory.Dfir.Model

/-!
# Dispatching an investigation to DeepAgent

`_state_dispatch_deepagent` suspends at the `POST`, between two commits, and the worker catches what
it raises.  So it is three definitions here.

* `dispatchPrepare`: everything the function checks before it touches the row.
* `dispatchReserve`: the assignments committed *before* the `POST`, which take the capacity slot.
* `dispatchOutcome`: from the answer to the `POST` on, with every `except` clause.
* `dispatchBoundary`: the three `except` clauses of the worker around the call.

`dispatchOutcome_cases` says that the answer is recorded by exactly one commit, and
`dispatchBoundary_dispatchOutcome` that the worker adds none to it.
-/

namespace AssetInventory

open PyJson PyTime Orm DfirInvestigation

/-- The job id of an investigation: `f"deepagent-{inv.id}"`. -/
def deepagentJobId (id : InvId) : String := "deepagent-" ++ id

/-- The exceptions the worker tells apart. -/
inductive DispatchExc where
  /-- `DispatchUncertain`: the request may have arrived. -/
  | uncertain (message : String)
  /-- `DispatchFailed`: definitive. -/
  | failed (message : String)
  /-- Any other exception. -/
  | other (e : PyExc)
  deriving DecidableEq

/-- The exception as a `PyExc`. -/
def DispatchExc.toPyExc : DispatchExc → PyExc
  | .uncertain m => ⟨"DispatchUncertain", m⟩
  | .failed m => ⟨"DispatchFailed", m⟩
  | .other e => e

/-! ## Before the request -/

/-- What the dispatch reads before the request: the platform of the machine, whether the LLM runtime
is configured, its decrypted API key, the decrypted Velociraptor client configuration if one was
uploaded, and the catalogue of custom artifacts. -/
structure DispatchEnv where
  targetPlatform : Except PyExc String
  llmRuntime : Bool
  apiKey : Option String
  clientConfig : Option (Except PyExc String)
  customArtifacts : Except PyExc Unit

/-- The checks of `_state_dispatch_deepagent` before its first assignment, in order. -/
def dispatchPrepare (cfg : Settings) (env : DispatchEnv) (inv : DfirInvestigation) :
    Except PyExc Unit := do
  if truthy inv.velociraptorClientId = false then
    throw (llmError "Investigation thiếu Velociraptor client_id")
  let _ ← env.targetPlatform
  if env.llmRuntime = false then
    throw (llmError "LLM runtime chưa được cấu hình")
  if truthy env.apiKey = false then
    throw (llmError "LLM runtime thiếu API key")
  if cfg.deepagentEnabled = false ∨ cfg.deepagentApiKey = "" then
    throw (llmError "DeepAgent chưa được bật hoặc chưa có service token")
  match env.clientConfig with
  | none => throw (llmError "Chưa upload api_client.yaml cho Velociraptor")
  | some config =>
    let _ ← config
    env.customArtifacts

/-- The assignment of the claim: the row is reserved by its job id. -/
def reserveJobId (id : InvId) (inv : DfirInvestigation) : DfirInvestigation :=
  { inv with externalJobId := some (deepagentJobId id) }

/-- The assignments before the request. -/
def dispatchReserve (id : InvId) (now : Time) (inv : DfirInvestigation) : DfirInvestigation :=
  { inv with
    status := .analyzing
    externalJobId := some (deepagentJobId id)
    hermesStatus := some "dispatching"
    startedAt := some now }

/-! ## After the request -/

/-- The answer to the `POST`, and the time when it has come. -/
structure DispatchReply where
  answer : HttpAnswer
  later : Time

/-- The client exceptions that may hide a request that arrived. -/
def ambiguousNetworkErrors : List String :=
  ["ConnectTimeout", "ReadTimeout", "WriteTimeout", "PoolTimeout", "ConnectError",
    "RemoteProtocolError"]

/-- The assignments of an ambiguous outcome. -/
def dispatchUncertain (details : List (String × Json)) (inv : DfirInvestigation) :
    DfirInvestigation :=
  { inv with
    hermesStatus := some "dispatch_uncertain"
    hermesResponse := some (.obj (("reason", .str "ambiguous_dispatch_outcome") :: details)) }

/-- The assignments of a definitive failure. -/
def dispatchFailed (message : String) (later : Time) (inv : DfirInvestigation) :
    DfirInvestigation :=
  { inv with
    status := .failed
    hermesStatus := some "dispatch_failed"
    error := some message
    completedAt := some later }

/-- The assignments of a confirmed dispatch. -/
def dispatchConfirmed (id : InvId) (jobStatus : Json) (inv : DfirInvestigation) :
    DfirInvestigation :=
  { inv with
    externalJobId := some (deepagentJobId id)
    hermesStatus := some "dispatched"
    hermesResponse := some (.obj [("job_id", .str (deepagentJobId id)), ("status", jobStatus)]) }

/-- The last `except` clause: whether a job id is set decides between ambiguous and definitive. -/
def dispatchUnexpected (later : Time) (e : PyExc) (s : Session DfirInvestigation) :
    Outcome DispatchExc :=
  if s.cur.externalJobId.isSome then
    .raise (s.set (dispatchUncertain
        [("kind", .str "post_request_exception"), ("error", .str (truncate 500 e.render))])).commit
      (.uncertain ("Post-POST exception: " ++ e.typeName))
  else
    .raise (s.set (dispatchFailed
        (truncate 2000 ("DeepAgent dispatch: " ++ e.render)) later)).commit
      (.failed ("DeepAgent dispatch: " ++ e.render))

/-- `_state_dispatch_deepagent` from the answer to the request on. -/
def dispatchOutcome (id : InvId) (env : DispatchReply) (inv : DfirInvestigation) :
    Outcome DispatchExc :=
  let s := Session.load inv
  match env.answer with
  | .raised e =>
    if e.typeName ∈ ambiguousNetworkErrors then
      .raise (s.set (dispatchUncertain
          [("kind", .str "network"), ("error", .str (truncate 500 e.render))])).commit
        (.uncertain (e.typeName ++ ": request có thể đã tới server."))
    else dispatchUnexpected env.later e s
  | .response code statusError body =>
    if 200 ≤ code ∧ code < 300 then
      match body with
      | .error e =>
        .raise (s.set (dispatchUncertain
            [("kind", .str "response_body_json_decode_failed"),
              ("error", .str (truncate 500 e.render))])).commit
          (.uncertain ("Response body không phải JSON hợp lệ (" ++ e.typeName ++ "); " ++
            "request có thể đã tới server. Đã lưu dispatch_uncertain + reconcile job."))
      | .ok body =>
        match body.entries? with
        | none => dispatchUnexpected env.later (attributeError body) s
        | some kvs =>
          if lookup "job_id" kvs ≠ some (.str (deepagentJobId id)) then
            .raise (s.set (dispatchFailed
                "DeepAgent trả về job ID không khớp investigation" env.later)).commit
              (.failed "DeepAgent trả về job ID không khớp investigation")
          else
            .ret (s.set (dispatchConfirmed id (getD kvs "status" .null))).commit
    -- `raise_for_status` raises `HTTPStatusError` on every other code
    else if 400 ≤ code ∧ code < 500 ∧ code ∉ [408, 429] then
      .raise (s.set (dispatchFailed (truncate 2000
          ("DeepAgent dispatch 4xx: " ++ toString code ++ ": " ++ statusError)) env.later)).commit
        (.failed ("DeepAgent dispatch 4xx: " ++ toString code))
    else
      .raise (s.set (dispatchUncertain
          [("status_code", .num code),
            ("error", .str (truncate 500 ("HTTPStatusError: " ++ statusError)))])).commit
        (.uncertain ("HTTP " ++ toString code ++ " ambiguous — request có thể đã tới server."))

/-- `_state_dispatch_deepagent` as one call: the request is answered before anything else
happens. -/
def stateDispatchDeepagent (cfg : Settings) (id : InvId) (now : Time) (env : DispatchEnv)
    (reply : DispatchReply) (inv : DfirInvestigation) : Outcome DispatchExc :=
  match dispatchPrepare cfg env inv with
  | .error e => .raise (Session.load inv) (.other e)
  | .ok _ =>
    let s := ((Session.load inv).set (dispatchReserve id now)).commit
    let o := dispatchOutcome id reply s.cur
    ⟨{ o.session with flushed := s.flushed ++ o.session.flushed }, o.raised⟩

/-! ## The worker around it -/

/-- The assignments of the worker's last `except` clause, for any row it processes. -/
def workerFail (later : Time) (e : PyExc) (inv : DfirInvestigation) : DfirInvestigation :=
  { inv with
    status := .failed
    error := some (truncate 2000 e.render)
    completedAt := some later }

/-- The `except` clauses of `run_pending_investigations` around a dispatch. -/
def dispatchBoundary (later : Time) (o : Outcome DispatchExc) : Session DfirInvestigation :=
  match o.raised with
  | none => o.session
  | some (.uncertain _) => o.session
  | some (.failed m) =>
    if o.session.cur.status ≠ .failed then
      (o.session.set (workerFail later (DispatchExc.failed m).toPyExc)).commit
    else o.session
  | some (.other e) => (o.session.set (workerFail later e)).commit

/-! ## What they commit -/

/-- **The commits of an outcome.**  Every answer to the request is recorded by exactly one commit,
which confirms the dispatch, leaves it uncertain, or fails it. -/
theorem dispatchOutcome_cases (id : InvId) (env : DispatchReply) (inv : DfirInvestigation) :
    ∃ c, (dispatchOutcome id env inv).session = ⟨c, c, [(inv, c)]⟩ ∧
      ((∃ st, c = dispatchConfirmed id st inv ∧ (dispatchOutcome id env inv).raised = none) ∨
        (∃ details m, c = dispatchUncertain details inv ∧
          (dispatchOutcome id env inv).raised = some (.uncertain m)) ∨
        ∃ message m, c = dispatchFailed message env.later inv ∧
          (dispatchOutcome id env inv).raised = some (.failed m)) := by
  have hunexpected : ∀ e, ∃ c,
      (dispatchUnexpected env.later e (Session.load inv)).session = ⟨c, c, [(inv, c)]⟩ ∧
      ((∃ st, c = dispatchConfirmed id st inv ∧
          (dispatchUnexpected env.later e (Session.load inv)).raised = none) ∨
        (∃ details m, c = dispatchUncertain details inv ∧
          (dispatchUnexpected env.later e (Session.load inv)).raised = some (.uncertain m)) ∨
        ∃ message m, c = dispatchFailed message env.later inv ∧
          (dispatchUnexpected env.later e (Session.load inv)).raised = some (.failed m)) := by
    intro e
    unfold dispatchUnexpected
    split
    · exact ⟨_, rfl, Or.inr (Or.inl ⟨_, _, rfl, rfl⟩)⟩
    · exact ⟨_, rfl, Or.inr (Or.inr ⟨_, _, rfl, rfl⟩)⟩
  unfold dispatchOutcome
  dsimp only
  cases env.answer with
  | raised e =>
    dsimp only
    split
    · exact ⟨_, rfl, Or.inr (Or.inl ⟨_, _, rfl, rfl⟩)⟩
    · exact hunexpected e
  | response code statusError body =>
    dsimp only
    split
    · cases body with
      | error e => exact ⟨_, rfl, Or.inr (Or.inl ⟨_, _, rfl, rfl⟩)⟩
      | ok body =>
        dsimp only
        cases body.entries? with
        | none => exact hunexpected (attributeError body)
        | some kvs =>
          dsimp only
          split
          · exact ⟨_, rfl, Or.inr (Or.inr ⟨_, _, rfl, rfl⟩)⟩
          · exact ⟨_, rfl, Or.inl ⟨_, rfl, rfl⟩⟩
    · split
      · exact ⟨_, rfl, Or.inr (Or.inr ⟨_, _, rfl, rfl⟩)⟩
      · exact ⟨_, rfl, Or.inr (Or.inl ⟨_, _, rfl, rfl⟩)⟩

/-- The worker adds no commit to an outcome: a definitive failure has failed the row already. -/
theorem dispatchBoundary_dispatchOutcome (id : InvId) (env : DispatchReply) (later : Time)
    (inv : DfirInvestigation) :
    dispatchBoundary later (dispatchOutcome id env inv) = (dispatchOutcome id env inv).session := by
  obtain ⟨c, hs, hc⟩ := dispatchOutcome_cases id env inv
  unfold dispatchBoundary
  rcases hc with ⟨st, rfl, hr⟩ | ⟨details, m, rfl, hr⟩ | ⟨message, m, rfl, hr⟩
  · rw [hr]
  · rw [hr]
  · rw [hr]
    dsimp only
    rw [if_neg (by rw [hs]; simp [dispatchFailed])]

/-- What the commit of an outcome can change. -/
structure OutcomeWrite (b c : DfirInvestigation) : Prop where
  kept : Kept b c
  /-- The row keeps its status or fails. -/
  status : c.status = b.status ∨ c.status = .failed
  polled : c.externalPolledAt = b.externalPolledAt

theorem outcomeWrite_of_mem {id : InvId} {env : DispatchReply} {inv b c : DfirInvestigation}
    (h : (b, c) ∈ (dispatchOutcome id env inv).session.flushed) : b = inv ∧ OutcomeWrite inv c := by
  obtain ⟨d, hs, hd⟩ := dispatchOutcome_cases id env inv
  rw [hs, List.mem_singleton, Prod.mk.injEq] at h
  obtain ⟨rfl, rfl⟩ := h
  refine ⟨rfl, ?_⟩
  rcases hd with ⟨st, rfl, -⟩ | ⟨details, m, rfl, -⟩ | ⟨message, m, rfl, -⟩
  · exact ⟨⟨rfl, rfl, rfl, rfl⟩, Or.inl rfl, rfl⟩
  · exact ⟨⟨rfl, rfl, rfl, rfl⟩, Or.inl rfl, rfl⟩
  · exact ⟨⟨rfl, rfl, rfl, rfl⟩, Or.inr rfl, rfl⟩

end AssetInventory

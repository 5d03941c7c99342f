import AssetInventory.Dfir.Dispatch
import AssetInventory.Dfir.Reconcile

/-!
# The local pipeline

The rows that DeepAgent does not own go `pending → running → collecting → analyzing → completed` by
the worker's own work, one function per state.

* `stateStart`: one Velociraptor flow per artifact.
* `statePollCollect`: poll the flows.  The polled flows are changed *in place* in the loaded
  `raw_artifacts`, which the session does not see.
* `bundle`, `stateAnalyze`: bundle the results and ask the LLM.
* `processOne`, `localBoundary`: the dispatcher by state and the worker's `except` clause.

`localRun_ok` is what their commits share.
-/

namespace AssetInventory

open PyJson PyTime Orm DfirInvestigation

/-! ## Starting the flows -/

/-- What `_state_start` meets: the exception of building or opening the Velociraptor client, if any,
the answer to the collection of each artifact by its position, and the time at the end. -/
structure StartEnv where
  clientError : Option PyExc
  collect : ℕ → Except PyExc String
  later : Time

/-- The flow of an artifact whose collection was answered. -/
def startedFlow (artifact : String) : Except PyExc String → Flow
  | .ok flowId => ⟨artifact, some flowId, none, none, none, false⟩
  | .error e => ⟨artifact, none, some e.render, none, none, false⟩

/-- The loop over the artifacts. -/
def startFlows (env : StartEnv) (artifacts : List String) : List Flow :=
  artifacts.mapIdx fun n artifact => startedFlow artifact (env.collect n)

/-- The first flow id that is set. -/
def firstFlowId (flows : List Flow) : Option String :=
  (flows.find? fun f => truthy f.flowId).bind Flow.flowId

def stateStart (now : Time) (env : StartEnv) (inv : DfirInvestigation) : Outcome PyExc :=
  let s := ((Session.load inv).set fun r =>
    { r with status := .running, startedAt := some now }).commit
  match env.clientError with
  | some e =>
    .raise (s.set fun r =>
      { r with
        status := .failed
        error := some (truncate 2000 ("Velociraptor: " ++ e.render))
        completedAt := some env.later }).commit e
  | none =>
    let flows := startFlows env inv.artifacts
    .ret (s.set fun r =>
      { r with
        rawArtifacts := some flows
        flowId := firstFlowId flows
        status := .collecting }).commit

/-! ## Polling them -/

/-- What polling one flow gives: an exception of `get_flow_status`, a running flow, or a finished
one with its error and what `get_flow_results` gives. -/
inductive FlowAnswer where
  | statusRaised (e : PyExc)
  | running
  | finished (error : Option String) (results : Except PyExc Json)

/-- What `_state_poll_collect` meets. -/
structure PollEnv where
  clientError : Option PyExc
  poll : ℕ → FlowAnswer
  later : Time

/-- The test by which the poll skips a flow: cached, without flow id, or failed at the start. -/
def Flow.skipped (f : Flow) : Bool := !truthy f.flowId || f.resultsCached || truthy f.error

/-- The body of the loop: the flow after it, and whether the flow is done. -/
def pollFlow (answer : FlowAnswer) (f : Flow) : Flow × Bool :=
  if f.skipped then (f, true)
  else
    match answer with
    | .statusRaised _ => (f, false)
    | .running => (f, false)
    | .finished error results =>
      let f :=
        if truthy error ∧ (f.results.map Json.truthy).getD false = false then
          { f with error := error }
        else f
      match results with
      | .ok rows => ({ f with results := some rows, resultsCached := true }, true)
      | .error e => ({ f with resultsError := some e.render, resultsCached := true }, true)

/-- The loop over the flows. -/
def pollFlows (env : PollEnv) (flows : List Flow) : List (Flow × Bool) :=
  flows.mapIdx fun n f => pollFlow (env.poll n) f

def statePollCollect (cfg : Settings) (now : Time) (env : PollEnv) (inv : DfirInvestigation) :
    Outcome PyExc :=
  let s := Session.load inv
  if olderThan inv.startedAt cfg.llmCollectMaxWaitSeconds now then
    .ret (s.set fun r =>
      { r with
        status := .failed
        error := some ("Timeout sau " ++ formatSeconds (now - inv.startedAt.getD now) ++
          "s chờ Velociraptor")
        completedAt := some now }).commit
  else if inv.rawArtifacts.getD [] = [] then
    .ret (s.set fun r =>
      { r with
        status := .failed
        error := some "Không có flow nào để poll"
        completedAt := some now }).commit
  else
    match env.clientError with
    | some e =>
      .raise (s.set fun r =>
        { r with
          status := .failed
          error := some (truncate 2000 ("Velociraptor poll: " ++ e.render))
          completedAt := some env.later }).commit e
    | none =>
      let polled := pollFlows env (inv.rawArtifacts.getD [])
      let s := (s.mutate fun r => { r with rawArtifacts := some (polled.map Prod.fst) }).commit
      if polled.all Prod.snd then
        if inv.externalOrchestrator.isSome then
          .ret (s.set fun r =>
            { r with status := .analyzing, hermesStatus := some "awaiting_external" }).commit
        else .ret (s.set fun r => { r with status := .analyzing }).commit
      else .ret s

/-! ## Analyzing -/

/-- `d[key] = value` on a dictionary in insertion order. -/
def dictSet {α : Type} (d : List (String × α)) (key : String) (value : α) : List (String × α) :=
  if d.any fun p => decide (p.1 = key) then
    d.map fun p => if p.1 = key then (key, value) else p
  else d ++ [(key, value)]

/-- The row count of a table given by columns. -/
def columnRows (columns : List (String × Json)) : ℕ :=
  (columns.map fun c => match c.2 with | .arr xs => xs.length | _ => 0).foldl max 0

/-- `column[i] if i < len(column) else None`. -/
def cell (i : ℕ) : Json → Except PyExc Json
  | .arr xs => .ok (xs.getD i .null)
  | .str s => .ok ((s.toList[i]?).elim .null fun ch => .str (String.ofList [ch]))
  | .obj kvs => if i < kvs.length then .error ⟨"KeyError", toString i⟩ else .ok .null
  | x => .error ⟨"TypeError", "object of type '" ++ x.typeName ++ "' has no len()"⟩

/-- The rows of a table given by columns. -/
def rowsOfColumns (columns : List (String × Json)) : Except PyExc (List Json) :=
  (List.range (columnRows columns)).mapM fun i =>
    (columns.mapM fun c => (cell i c.2).map fun v => (c.1, v)).map Json.obj

/-- What one flow adds to the artifacts data. -/
def bundleFlow (data : List (String × List Json)) (f : Flow) :
    Except PyExc (List (String × List Json)) :=
  match f.results with
  | some (.arr rows) => .ok (dictSet data f.artifact rows)
  | some (.obj columns) => (rowsOfColumns columns).map fun rows => dictSet data f.artifact rows
  | _ =>
    .ok (if truthy f.error then
      dictSet data f.artifact [.obj [("error", (f.error.map Json.str).getD .null)]]
    else data)

/-- The artifacts data that `_state_analyze` bundles. -/
def bundle (flows : List Flow) : Except PyExc (List (String × List Json)) :=
  flows.foldlM bundleFlow []

/-- The answer of the LLM, with what `_parse_severity` and `_parse_findings_count` find in it. -/
structure LlmResponse where
  content : String
  inputTokens : ℤ
  outputTokens : ℤ
  totalTokens : ℤ
  estimatedCostUsd : ℚ
  severity : String
  findingsCount : ℤ

/-- What asking the LLM gives. -/
inductive LlmAnswer where
  | ok (resp : LlmResponse)
  /-- One of `LlmAuthError`, `LlmTimeoutError`, `LlmRateLimitError`, `LlmError`. -/
  | llmError (message : String)
  | raised (e : PyExc)

/-- The LLM configuration row as `_state_analyze` uses it. -/
structure LlmConfig where
  provider : String
  model : String

/-- What `_state_analyze` meets. -/
structure AnalyzeEnv where
  config : Option LlmConfig
  llm : LlmAnswer
  later : Time

/-- `_state_analyze`: the outcome, and the tokens it adds to the daily counter with its last
commit. -/
def stateAnalyze (now : Time) (env : AnalyzeEnv) (inv : DfirInvestigation) :
    Outcome PyExc × Option ℤ :=
  let s := Session.load inv
  if inv.externalOrchestrator.isSome then (.ret s, none)
  else
    match env.config with
    | none =>
      (.ret (s.set fun r =>
        { r with
          status := .failed
          error := some "LLM config bị xoá giữa chừng"
          completedAt := some now }).commit, none)
    | some config =>
      match bundle (inv.rawArtifacts.getD []) with
      | .error e => (.raise s e, none)
      | .ok _ =>
        let s := (s.set fun r =>
          { r with llmProvider := some config.provider, llmModel := some config.model }).commit
        match env.llm with
        | .ok resp =>
          (.ret (s.set fun r =>
            { r with
              reportMarkdown := some resp.content
              inputTokens := some resp.inputTokens
              outputTokens := some resp.outputTokens
              estimatedCostUsd := some resp.estimatedCostUsd
              severity := some resp.severity
              findingsCount := some resp.findingsCount
              status := .completed
              completedAt := some env.later }).commit, some resp.totalTokens)
        | .llmError message =>
          (.ret (s.set fun r =>
            { r with
              status := .failed
              error := some (truncate 2000 ("LLM: " ++ message))
              completedAt := some env.later }).commit, none)
        | .raised e => (.raise s e, none)

/-! ## One row of a tick -/

/-- What the processing of a row meets, whatever its state and orchestrator are. -/
structure LocalEnv where
  dispatch : DispatchEnv
  reply : DispatchReply
  reconcile : ReconcileEnv
  start : StartEnv
  poll : PollEnv
  analyze : AnalyzeEnv
  later : Time

/-- An outcome whose exception the worker does not look into. -/
def Outcome.toPyExc (o : Outcome DispatchExc) : Outcome PyExc :=
  ⟨o.session, o.raised.map DispatchExc.toPyExc⟩

/-- `_process_one`, with the tokens it adds to the daily counter. -/
def processOne (cfg : Settings) (id : InvId) (now : Time) (env : LocalEnv)
    (inv : DfirInvestigation) : Outcome PyExc × Option ℤ :=
  if inv.externalOrchestrator = some .deepagent then
    match inv.status with
    | .pending => ((stateDispatchDeepagent cfg id now env.dispatch env.reply inv).toPyExc, none)
    | .analyzing => (stateCheckDeepagentJob cfg now env.reconcile inv, none)
    | _ => (.ret (Session.load inv), none)
  else
    match inv.status with
    | .pending => (stateStart now env.start inv, none)
    | .running => (statePollCollect cfg now env.poll inv, none)
    | .collecting => (statePollCollect cfg now env.poll inv, none)
    | .analyzing => stateAnalyze now env.analyze inv
    | _ => (.ret (Session.load inv), none)

/-- The `except` clause of `run_pending_investigations` around `_process_one`. -/
def localBoundary (later : Time) (o : Outcome PyExc) : Session DfirInvestigation :=
  match o.raised with
  | none => o.session
  | some e => (o.session.set (workerFail later e)).commit

/-! ## What a local row's commits share -/

/-- What a commit of the local pipeline can change. -/
structure LocalWrite (b c : DfirInvestigation) : Prop where
  kept : Kept b c
  /-- A row that has ended stays as it ended. -/
  terminal : b.status.isTerminal = true → c.status = b.status
  /-- Nothing returns to the queue. -/
  pending : c.status = .pending → b.status = .pending
  polled : c.externalPolledAt = b.externalPolledAt
  /-- The columns of the DeepAgent protocol are not assigned. -/
  job : c.externalJobId = b.externalJobId
  response : c.hermesResponse = b.hermesResponse

theorem LocalWrite.refl (b : DfirInvestigation) : LocalWrite b b :=
  ⟨Kept.refl b, fun _ => rfl, fun h => h, rfl, rfl, rfl⟩

/-- A call on a local row: its session is in order, and when it raises nothing is left unflushed and
the row has not been completed. -/
structure Outcome.Local (inv : DfirInvestigation) (o : Outcome PyExc) : Prop where
  ok : o.session.Ok butFlows LocalWrite inv
  raised : o.raised ≠ none → o.session.base = o.session.cur ∧ o.session.cur.status ≠ .completed

variable {inv : DfirInvestigation}

theorem Outcome.Local.ret {s : Session DfirInvestigation}
    (h : s.Ok butFlows LocalWrite inv) : (Outcome.ret s).Local inv :=
  ⟨h, fun hr => absurd rfl hr⟩

theorem stateStart_local (now : Time) (env : StartEnv)
    (hinv : inv.status = .pending) : (stateStart now env inv).Local inv := by
  have hrun : (((Session.load inv).set fun r =>
      { r with status := .running, startedAt := some now }).commit).Ok butFlows LocalWrite inv :=
    ((Session.Ok.load _ _ inv).set _).commit
      ⟨⟨rfl, rfl, rfl, rfl⟩, by simp [hinv, Status.isTerminal], by simp, rfl, rfl, rfl⟩
  unfold stateStart
  dsimp only
  cases env.clientError with
  | some e =>
    refine ⟨(hrun.set _).commit ⟨⟨rfl, rfl, rfl, rfl⟩, ?_, ?_, rfl, rfl, rfl⟩, fun _ => ⟨rfl, ?_⟩⟩
    · simp [Status.isTerminal]
    · simp
    · simp [Outcome.raise]
  | none =>
    refine Outcome.Local.ret ((hrun.set _).commit ⟨⟨rfl, rfl, rfl, rfl⟩, ?_, ?_, rfl, rfl, rfl⟩)
    · simp [Status.isTerminal]
    · simp

theorem statePollCollect_local (cfg : Settings) (now : Time) (env : PollEnv)
    (hinv : inv.status.isTerminal = false) :
    (statePollCollect cfg now env inv).Local inv := by
  have hload := Session.Ok.load butFlows LocalWrite inv
  -- the change in place is invisible, so the first commit writes nothing
  have hpolled : ∀ flows : Option (List Flow), (((Session.load inv).mutate fun r =>
      { r with rawArtifacts := flows }).commit).Ok butFlows LocalWrite inv :=
    fun flows =>
      (hload.mutate (f := fun r => { r with rawArtifacts := flows }) fun _ => rfl).commit
        (LocalWrite.refl _)
  unfold statePollCollect
  dsimp only
  split
  · exact Outcome.Local.ret ((hload.set _).commit
      ⟨⟨rfl, rfl, rfl, rfl⟩, by simp [hinv], by simp, rfl, rfl, rfl⟩)
  · split
    · exact Outcome.Local.ret ((hload.set _).commit
        ⟨⟨rfl, rfl, rfl, rfl⟩, by simp [hinv], by simp, rfl, rfl, rfl⟩)
    · cases env.clientError with
      | some e =>
        refine ⟨(hload.set _).commit ⟨⟨rfl, rfl, rfl, rfl⟩, by simp [hinv], by simp, rfl, rfl, rfl⟩,
          fun _ => ⟨rfl, ?_⟩⟩
        simp [Outcome.raise]
      | none =>
        dsimp only
        split
        · split
          · exact Outcome.Local.ret (((hpolled _).set _).commit
              ⟨⟨rfl, rfl, rfl, rfl⟩, by simp [hinv], by simp, rfl, rfl, rfl⟩)
          · exact Outcome.Local.ret (((hpolled _).set _).commit
              ⟨⟨rfl, rfl, rfl, rfl⟩, by simp [hinv], by simp, rfl, rfl, rfl⟩)
        · exact Outcome.Local.ret (hpolled _)

theorem stateAnalyze_local (now : Time) (env : AnalyzeEnv)
    (hinv : inv.status = .analyzing) : (stateAnalyze now env inv).1.Local inv := by
  have hload := Session.Ok.load butFlows LocalWrite inv
  have hterm : inv.status.isTerminal = false := by rw [hinv]; rfl
  have hmodel : ∀ provider model : Option String, (((Session.load inv).set fun r =>
      { r with llmProvider := provider, llmModel := model }).commit).Ok butFlows LocalWrite inv :=
    fun provider model => (hload.set _).commit
      ⟨⟨rfl, rfl, rfl, rfl⟩, by simp, by simp, rfl, rfl, rfl⟩
  unfold stateAnalyze
  dsimp only
  split
  · exact Outcome.Local.ret hload
  · cases env.config with
    | none =>
      exact Outcome.Local.ret ((hload.set _).commit
        ⟨⟨rfl, rfl, rfl, rfl⟩, by simp [hterm], by simp, rfl, rfl, rfl⟩)
    | some config =>
      dsimp only
      cases bundle (inv.rawArtifacts.getD []) with
      | error e => exact ⟨hload, fun _ => ⟨rfl, by simp [Outcome.raise, hinv]⟩⟩
      | ok data =>
        dsimp only
        cases env.llm with
        | ok resp =>
          exact Outcome.Local.ret (((hmodel _ _).set _).commit
            ⟨⟨rfl, rfl, rfl, rfl⟩, by simp [hterm], by simp, rfl, rfl, rfl⟩)
        | llmError message =>
          exact Outcome.Local.ret (((hmodel _ _).set _).commit
            ⟨⟨rfl, rfl, rfl, rfl⟩, by simp [hterm], by simp, rfl, rfl, rfl⟩)
        | raised e => exact ⟨hmodel _ _, fun _ => ⟨rfl, by simp [Outcome.raise, hinv]⟩⟩

theorem processOne_local (cfg : Settings) (id : InvId) (now : Time) (env : LocalEnv)
    (hinv : inv.externalOrchestrator ≠ some .deepagent) :
    (processOne cfg id now env inv).1.Local inv := by
  unfold processOne
  rw [if_neg hinv]
  cases hs : inv.status with
  | pending => exact stateStart_local now env.start hs
  | running => exact statePollCollect_local cfg now env.poll (by rw [hs]; rfl)
  | collecting => exact statePollCollect_local cfg now env.poll (by rw [hs]; rfl)
  | analyzing => exact stateAnalyze_local now env.analyze hs
  | completed => exact Outcome.Local.ret (Session.Ok.load _ _ inv)
  | failed => exact Outcome.Local.ret (Session.Ok.load _ _ inv)

/-- **A row of the local pipeline.**  Whatever the row meets, the commits the worker makes for it
are in order and each is a `LocalWrite`. -/
theorem localBoundary_ok (later : Time) {o : Outcome PyExc}
    (h : o.Local inv) : (localBoundary later o).Ok butFlows LocalWrite inv := by
  unfold localBoundary
  cases hr : o.raised with
  | none => exact h.ok
  | some e =>
    obtain ⟨hbase, hne⟩ := h.raised (by rw [hr]; simp)
    refine (h.ok.set _).commit ?_
    rw [Session.base_set, Session.cur_set, hbase]
    refine ⟨⟨rfl, rfl, rfl, rfl⟩, ?_, by simp [workerFail], rfl, rfl, rfl⟩
    intro ht
    cases hs : o.session.cur.status <;> simp_all [Status.isTerminal, workerFail]

end AssetInventory

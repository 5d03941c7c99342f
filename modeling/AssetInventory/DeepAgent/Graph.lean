import AssetInventory.Lib.Workflow
import AssetInventory.DeepAgent.AnalysisModel
import AssetInventory.DeepAgent.McpClient
import AssetInventory.DeepAgent.Report

/-!
# The investigation graph

`verify_target → plan → collect`, where `collect` runs one step of the plan and is repeated until the
plan is done; then `plan_tier2`, once, which may add steps to the plan and so lead back to `collect`;
then `assess → render_report`.

* `InvestigationState`: the state of the graph.  Keys that no node has set yet have their default.
* `Answers`: what the model, the MCP server and the clock answer.  A step is collected at most once, so
  the answers about a collection are found by the index of its step.
* `collectStep`, `planTier2`, ...: the nodes; `investigate`: a run with its recursion limit.
* `collect_ok`, `planTier2_ok`, ...: what a node that returns has done.
-/

namespace AssetInventory.DeepAgent

open PyJson PyTime Workflow

/-! ## State and answers -/

/-- The state of the graph. -/
structure InvestigationState where
  targetMetadata : Option Json
  plan : Option InvestigationPlan
  stepIndex : ℕ
  evidence : List EvidenceItem
  assessment : Option Assessment
  reportMarkdown : Option String
  tier2Planned : Bool
  limitations : List String

/-- `{"request": request}`. -/
def InvestigationState.initial : InvestigationState := ⟨none, none, 0, [], none, none, false, []⟩

inductive Node where
  | verifyTarget | plan | planTier2 | collect | assess | renderReport
  deriving DecidableEq, Repr

/-- What `plan_tier2_expansion` returns: nothing, a step, an iterable of steps and other things
(`none`), or something whose iteration raises. -/
inductive Tier2Answer where
  | nothing
  | single (step : InvestigationStep)
  | items (proposed : List (Option InvestigationStep))
  | notIterable (e : PyExc)

/-- What the world answers in a run. -/
structure Answers where
  /-- `get_tools()`. -/
  tools : Except PyExc (List McpTool)
  /-- The server, on `list_clients`. -/
  verify : McpAnswer
  plan : Except PyExc InvestigationPlan
  /-- The server, on the generic collection of a step. -/
  collect : ℕ → McpAnswer
  /-- The server, on the triage of a step. -/
  triage : ℕ → McpAnswer
  /-- The server, on the details of a step, counted from 1. -/
  detail : ℕ → ℕ → McpAnswer
  /-- `model.plan_event_log_expansion`; `none` if the model has no such method. -/
  expansion : ℕ → Option (Except PyExc (List RawExpansion))
  /-- `model.plan_tier2_expansion`; `none` if the model has no such method. -/
  tier2 : Option (Except PyExc Tier2Answer)
  assess : Except PyExc Assessment
  /-- `datetime.now(UTC)` at the items of a step: 0 for the first, then the details. -/
  now : ℕ → ℕ → Time
  /-- The texts of floats and strings. -/
  reprs : Reprs

section Nodes

variable (settings : Settings) (request : InvestigationRequest) (answers : Answers)

abbrev NodeResult := List Invocation × Except PyExc InvestigationState

/-! ## The first two nodes -/

/-- The node `verify_target`. -/
def verifyTargetNode (s : InvestigationState) : NodeResult :=
  let called := verifyTarget answers.reprs answers.tools request.clientId
    (some (orgOf request.orgId settings)) answers.verify
  (called.1,
    match called.2 with
    | .error e => .error e.toExc
    | .ok metadata =>
      .ok { s with
        targetMetadata := some metadata
        evidence := []
        stepIndex := 0
        tier2Planned := false })

/-- The plan of the initial stage. -/
def initialPlan : Except PyExc InvestigationPlan :=
  match answers.plan with
  | .error e => .error e
  | .ok raw =>
    sanitizePlan raw (min settings.maxSteps initialTriageMaxSteps) (initialCustomToolNames request)
      request.targetPlatform

/-- The node `plan`. -/
def planNode (s : InvestigationState) : NodeResult :=
  ([], (initialPlan settings request answers).map fun plan => { s with plan := some plan })

/-! ## The second stage -/

/-- The loop over the proposed steps. -/
def acceptTier2 (candidates : List String) :
    List String → List InvestigationStep → List (Option InvestigationStep) → List InvestigationStep
  | _, acceptedSteps, [] => acceptedSteps
  | existingTools, acceptedSteps, none :: items =>
    acceptTier2 candidates existingTools acceptedSteps items
  | existingTools, acceptedSteps, some step :: items =>
    if step.tool ∉ candidates ∨ step.tool ∈ existingTools then
      acceptTier2 candidates existingTools acceptedSteps items
    else if maxTier2Steps ≤ (acceptedSteps ++ [step]).length then acceptedSteps ++ [step]
    else acceptTier2 candidates (existingTools ++ [step.tool]) (acceptedSteps ++ [step]) items

/-- The steps to go through; `none` is the exception of an iteration. -/
def Tier2Answer.proposed : Tier2Answer → Except PyExc (List (Option InvestigationStep))
  | .nothing => .ok []
  | .single step => .ok [some step]
  | .items proposed => .ok proposed
  | .notIterable e => .error e

/-- The part of `plan_tier2` that adds steps to the plan. -/
def extendPlan (reduced : List EvidenceItem) (items : List (Option InvestigationStep))
    (s : InvestigationState) : Except PyExc InvestigationState :=
  let accepted :=
    acceptTier2 (tier2CustomToolNames request) (reduced.map EvidenceItem.tool) [] items
  if accepted = [] then .ok { s with tier2Planned := true }
  else
    match s.plan with
    | none => .error ⟨"KeyError", "'plan'"⟩
    | some plan =>
      match InvestigationPlan.validate plan.hypothesis (plan.steps ++ accepted) with
      | .error e => .error e
      | .ok expanded => .ok { s with plan := some expanded, tier2Planned := true }

/-- The node `plan_tier2`. -/
def planTier2Node (s : InvestigationState) : NodeResult :=
  ([],
    match fitEvidenceBudget answers.reprs settings.maxEvidenceChars s.evidence with
    | .error e => .error e
    | .ok reduced =>
      if tier2CustomToolNames request = [] then .ok { s with tier2Planned := true }
      else
        match answers.tier2 with
        | none => .ok { s with tier2Planned := true }
        | some (.error _) =>
          .ok { s with
            tier2Planned := true
            limitations := s.limitations ++ ["tier2_planning_failed"] }
        | some (.ok answer) =>
          match answer.proposed with
          | .error e => .error e
          | .ok items => extendPlan request reduced items s)

/-! ## Collection -/

/-- `f"E-{n:03d}"`. -/
def evidenceId (n : ℕ) : String := "E-" ++ zeroPad 3 n

def safeCollectionError : McpError → String × Bool
  | .timeout _ => ("MCP collection timed out.", true)
  | e => ("MCP collection failed: " ++ e.toExc.typeName ++ ".", false)

def failedItem (id tool : String) (collectedAt : Time) (e : McpError) : EvidenceItem :=
  ⟨id, tool, collectedAt, false, .null, none, some (safeCollectionError e).1,
    (safeCollectionError e).2⟩

/-- The item of an event-log result. -/
def logItem (id tool : String) (collectedAt : Time)
    (result : Except McpError (List (String × Json))) : EvidenceItem :=
  match result with
  | .error e => failedItem id tool collectedAt e
  | .ok data => ⟨id, tool, collectedAt, true, .obj data, none, none, false⟩

/-- The item of a payload: pagination that is not a `dict` fails the validation of the item. -/
def payloadItem (id tool : String) (collectedAt : Time) (payload : List (String × Json)) :
    EvidenceItem :=
  if (getD payload "ok" .null).truthy then
    match getD payload "pagination" .null with
    | .null => ⟨id, tool, collectedAt, true, getD payload "data" .null, none, none, false⟩
    | .obj page => ⟨id, tool, collectedAt, true, getD payload "data" .null, some page, none, false⟩
    | _ => failedItem id tool collectedAt (.raised (validationError "pagination"))
  else
    ⟨id, tool, collectedAt, false, .null, none, some "MCP tool returned a failed envelope.", false⟩

/-- What the collection of a step leaves: calls, new items, new limitations. -/
structure Collected where
  invocations : List Invocation
  items : List EvidenceItem
  limitations : List String

/-- The generic branch of `collect_step`. -/
def collectGeneric (index : ℕ) (tool : String) : Collected :=
  let called := collect answers.reprs settings answers.tools tool request.clientId
    (some (orgOf request.orgId settings)) request.timeRange.from_ request.timeRange.to_ 50 0
    (customToolNames request) (answers.collect index)
  { invocations := called.1
    items :=
      [match called.2 with
        | .error e => failedItem (evidenceId (index + 1)) tool (answers.now index 0) e
        | .ok payload => payloadItem (evidenceId (index + 1)) tool (answers.now index 0) payload]
    limitations := [] }

/-- The sampled event ids of a triage result. -/
def sampledEventIds (R : Reprs) (result : List (String × Json)) : List String :=
  match getD result "event_ids" .null with
  | .arr eids => (eids.filter Json.truthy).map (Json.pyStr R)
  | _ => []

/-- The accepted expansions, and the labels of the others. -/
def planExpansions (index : ℕ) (sampled : List String) : List EventLogExpansion × List String :=
  if sampled = [] then ([], [])
  else
    match answers.expansion index with
    | some (.ok raw) => validateEventLogExpansions raw request.timeRange sampled
    | _ => ([], [])

/-- The triage call of a step. -/
def triageCall (index : ℕ) : Adapter (List (String × Json)) :=
  collectEventLogTriage answers.reprs settings answers.tools request.clientId
    (some (orgOf request.orgId settings)) request.timeRange.from_ request.timeRange.to_
    "security_core" (answers.triage index)

/-- A detail call of a step. -/
def detailCall (index detailIdx : ℕ) (expansion : EventLogExpansion) :
    Adapter (List (String × Json)) :=
  collectEventLogDetail answers.reprs settings answers.tools request.clientId
    (some (orgOf request.orgId settings)) expansion.dateAfter expansion.dateBefore
    expansion.eventIds "" 50 (answers.detail index detailIdx)

/-- The expansions that are executed, counted from 1. -/
def numbered (expansions : List EventLogExpansion) : List (EventLogExpansion × ℕ) :=
  (expansions.take maxDetailCalls).zipIdx 1

/-- The item of a detail call. -/
def detailItem (index : ℕ) (expansion : EventLogExpansion × ℕ) : EvidenceItem :=
  logItem (evidenceId (index + 1 + expansion.2)) "windows_event_logs_detail"
    (answers.now index expansion.2)
    (detailCall settings request answers index expansion.2 expansion.1).2

/-- The expansions executed after a triage result, and the labels of the rejected ones. -/
def expansionsAfter (index : ℕ) (result : Except McpError (List (String × Json))) :
    List (EventLogExpansion × ℕ) × List String :=
  match result with
  | .error _ => ([], [])
  | .ok data =>
    let planned := planExpansions request answers index (sampledEventIds answers.reprs data)
    (numbered planned.1, planned.2)

/-- `_collect_event_log_with_expansion`. -/
def collectEventLog (index : ℕ) : Collected :=
  let triaged := triageCall settings request answers index
  let expansions := expansionsAfter request answers index triaged.2
  { invocations := triaged.1 ++ expansions.1.flatMap fun x =>
      (detailCall settings request answers index x.2 x.1).1
    items :=
      logItem (evidenceId (index + 1)) "windows_event_logs" (answers.now index 0) triaged.2 ::
        expansions.1.map (detailItem settings request answers index)
    limitations := expansions.2 }

/-- `collect_step` for a step at an index. -/
def collectAt (index : ℕ) (tool : String) : Collected :=
  if tool = "windows_event_logs" then collectEventLog settings request answers index
  else collectGeneric settings request answers index tool

/-- The node `collect`. -/
def collectNode (s : InvestigationState) : NodeResult :=
  match s.plan with
  | none => ([], .error ⟨"KeyError", "'plan'"⟩)
  | some plan =>
    match plan.steps[s.stepIndex]? with
    | none => ([], .error ⟨"IndexError", "list index out of range"⟩)
    | some step =>
      let done := collectAt settings request answers s.stepIndex step.tool
      (done.invocations,
        .ok { s with
          evidence := s.evidence ++ done.items
          stepIndex := s.stepIndex + 1
          limitations := s.limitations ++ done.limitations })

/-! ## The end of the run -/

/-- The node `assess`. -/
def assessNode (s : InvestigationState) : NodeResult :=
  ([],
    match fitEvidenceBudget answers.reprs settings.maxEvidenceChars s.evidence with
    | .error e => .error e
    | .ok bounded =>
      match answers.assess with
      | .error e => .error e
      | .ok assessment =>
        let validated := validateAssessmentEvidence assessment bounded
        .ok { s with
          assessment :=
            some { validated with limitations := validated.limitations ++ s.limitations } })

/-- The node `render_report`. -/
def renderReportNode (s : InvestigationState) : NodeResult :=
  ([],
    match fitEvidenceBudget answers.reprs settings.maxEvidenceChars s.evidence, s.assessment with
    | .error e, _ => .error e
    | .ok _, none => .error ⟨"KeyError", "'assessment'"⟩
    | .ok bounded, some assessment =>
      .ok { s with reportMarkdown := some (buildMarkdownReport request assessment bounded) })

/-! ## The graph -/

/-- Steps of the plan are left. -/
def InvestigationState.hasStep (s : InvestigationState) : Bool :=
  s.plan.any fun plan => decide (s.stepIndex < plan.steps.length)

/-- The edges: `after_collect`, `after_tier2_plan` and the fixed ones. -/
def nextNode (n : Node) (s : InvestigationState) : Option Node :=
  match n with
  | .verifyTarget => some .plan
  | .plan => some .collect
  | .collect =>
    if s.hasStep then some .collect
    else if s.tier2Planned then some .assess
    else some .planTier2
  | .planTier2 => if s.hasStep then some .collect else some .assess
  | .assess => some .renderReport
  | .renderReport => none

/-- `build_investigation_graph`. -/
def investigationGraph : Graph Node InvestigationState Invocation PyExc where
  node := fun n s =>
    match n with
    | .verifyTarget => verifyTargetNode settings request answers s
    | .plan => planNode settings request answers s
    | .planTier2 => planTier2Node settings request answers s
    | .collect => collectNode settings request answers s
    | .assess => assessNode settings answers s
    | .renderReport => renderReportNode settings request answers s
  next := nextNode

/-- `settings.max_steps + 8`. -/
def recursionLimit : ℕ := (settings.maxSteps + 8).toNat

/-- `graph.ainvoke({"request": request}, {"recursion_limit": settings.max_steps + 8})`. -/
def investigate : Execution Node InvestigationState Invocation PyExc :=
  (investigationGraph settings request answers).run (recursionLimit settings) .verifyTarget .initial

end Nodes

/-! ## What a node that returns has done -/

/-- The step to be collected. -/
def InvestigationState.currentStep (s : InvestigationState) : Option InvestigationStep :=
  s.plan.bind fun plan => plan.steps[s.stepIndex]?

section Returned

variable {settings : Settings} {request : InvestigationRequest} {answers : Answers}
  {s t : InvestigationState}

theorem verifyTarget_ok (h : (verifyTargetNode settings request answers s).2 = .ok t) :
    ∃ metadata, t = { s with
      targetMetadata := some metadata, evidence := [], stepIndex := 0, tier2Planned := false } := by
  unfold verifyTargetNode at h
  dsimp only at h
  split at h
  · cases h
  · exact ⟨_, (Except.ok.inj h).symm⟩

theorem plan_ok (h : (planNode settings request answers s).2 = .ok t) :
    ∃ plan, initialPlan settings request answers = .ok plan ∧ t = { s with plan := some plan } := by
  unfold planNode at h
  cases hplan : initialPlan settings request answers with
  | error e =>
    rw [hplan] at h
    cases h
  | ok plan =>
    rw [hplan] at h
    exact ⟨plan, rfl, (Except.ok.inj h).symm⟩

theorem extendPlan_ok {reduced : List EvidenceItem} {items : List (Option InvestigationStep)}
    (h : extendPlan request reduced items s = .ok t) :
    ∃ plan, t = { s with plan := plan, tier2Planned := true } ∧
      plan.map InvestigationPlan.steps = s.plan.map fun p => p.steps ++
        acceptTier2 (tier2CustomToolNames request) (reduced.map EvidenceItem.tool) [] items := by
  unfold extendPlan at h
  dsimp only at h
  split_ifs at h with hnone
  · refine ⟨s.plan, (Except.ok.inj h).symm, ?_⟩
    rw [hnone]
    simp
  · split at h
    · cases h
    · rename_i plan hplan
      split at h
      · cases h
      · rename_i expanded hexpanded
        refine ⟨some expanded, (Except.ok.inj h).symm, ?_⟩
        rw [hplan, Option.map_some, Option.map_some,
          (InvestigationPlan.validate_eq_ok hexpanded).2]

/-- The steps that the answer proposes; none if there is no list of them. -/
def Answers.tier2Items (answers : Answers) : List (Option InvestigationStep) :=
  match answers.tier2 with
  | some (.ok answer) => answer.proposed.toOption.getD []
  | _ => []

/-- The steps that the second stage adds after the evidence `reduced`. -/
def tier2Steps (request : InvestigationRequest) (answers : Answers) (reduced : List EvidenceItem) :
    List InvestigationStep :=
  acceptTier2 (tier2CustomToolNames request) (reduced.map EvidenceItem.tool) [] answers.tier2Items

theorem acceptTier2_nil (existing : List String) (accepted : List InvestigationStep)
    (items : List (Option InvestigationStep)) : acceptTier2
    [] existing accepted items = accepted := by
  induction items with
  | nil => rfl
  | cons item items ih =>
    cases item with
    | none => exact ih
    | some step =>
      rw [acceptTier2, if_pos (Or.inl List.not_mem_nil)]
      exact ih

theorem planTier2_ok (h : (planTier2Node settings request answers s).2 = .ok t) :
    ∃ reduced plan limitations,
      fitEvidenceBudget answers.reprs settings.maxEvidenceChars s.evidence = .ok reduced ∧
      t = { s with plan := plan, tier2Planned := true, limitations := limitations } ∧
      plan.map InvestigationPlan.steps =
        s.plan.map fun p => p.steps ++ tier2Steps request answers reduced := by
  unfold planTier2Node at h
  cases hfit : fitEvidenceBudget answers.reprs settings.maxEvidenceChars s.evidence with
  | error e =>
    simp only [hfit] at h
    cases h
  | ok reduced =>
    simp only [hfit] at h
    -- where nothing is proposed or can be accepted, the plan stays
    have hkeep : tier2Steps request answers reduced = [] →
        s.plan.map InvestigationPlan.steps =
          s.plan.map fun p => p.steps ++ tier2Steps request answers reduced := by
      intro hnone
      simp [hnone]
    split_ifs at h with hcandidates
    · refine ⟨reduced, s.plan, s.limitations, rfl, (Except.ok.inj h).symm, hkeep ?_⟩
      rw [tier2Steps, hcandidates]
      exact acceptTier2_nil _ _ _
    · cases htier2 : answers.tier2 with
      | none =>
        simp only [htier2] at h
        refine ⟨reduced, s.plan, s.limitations, rfl, (Except.ok.inj h).symm, hkeep ?_⟩
        rw [tier2Steps, Answers.tier2Items, htier2]
        rfl
      | some result =>
        cases result with
        | error e =>
          simp only [htier2] at h
          refine ⟨reduced, s.plan, _, rfl, (Except.ok.inj h).symm, hkeep ?_⟩
          rw [tier2Steps, Answers.tier2Items, htier2]
          rfl
        | ok answer =>
          simp only [htier2] at h
          cases hproposed : answer.proposed with
          | error e =>
            simp only [hproposed] at h
            cases h
          | ok items =>
            simp only [hproposed] at h
            obtain ⟨plan, ht, hplan⟩ := extendPlan_ok h
            refine ⟨reduced, plan, s.limitations, rfl, ht, ?_⟩
            rw [hplan, tier2Steps, Answers.tier2Items, htier2]
            simp only [hproposed]
            rfl

theorem collectNode_of_step {step : InvestigationStep} (hstep : s.currentStep = some step) :
    collectNode settings request answers s =
      ((collectAt settings request answers s.stepIndex step.tool).invocations, .ok { s with
          evidence :=
            s.evidence ++ (collectAt settings request answers s.stepIndex step.tool).items
          stepIndex := s.stepIndex + 1
          limitations := s.limitations ++
            (collectAt settings request answers s.stepIndex step.tool).limitations }) := by
  obtain ⟨plan, hplan, hget⟩ := Option.bind_eq_some_iff.mp hstep
  rw [collectNode, hplan]
  simp only [hget]

theorem collect_ok (h : (collectNode settings request answers s).2 = .ok t) :
    ∃ step, s.currentStep = some step ∧
      t = { s with
        evidence := s.evidence ++ (collectAt settings request answers s.stepIndex step.tool).items
        stepIndex := s.stepIndex + 1
        limitations := s.limitations ++
          (collectAt settings request answers s.stepIndex step.tool).limitations } := by
  cases hstep : s.currentStep with
  | none =>
    unfold collectNode at h
    split at h
    · cases h
    · rename_i plan hplan
      rw [InvestigationState.currentStep, hplan, Option.bind_some] at hstep
      simp only [hstep] at h
      cases h
  | some step =>
    rw [collectNode_of_step hstep] at h
    exact ⟨step, rfl, (Except.ok.inj h).symm⟩

theorem assess_ok (h : (assessNode settings answers s).2 = .ok t) :
    ∃ assessment, t = { s with assessment := some assessment } := by
  unfold assessNode at h
  split at h
  · cases h
  · split at h
    · cases h
    · exact ⟨_, (Except.ok.inj h).symm⟩

theorem renderReport_ok (h : (renderReportNode settings request answers s).2 = .ok t) :
    ∃ report, t = { s with reportMarkdown := some report } := by
  unfold renderReportNode at h
  split at h
  · cases h
  · cases h
  · exact ⟨_, (Except.ok.inj h).symm⟩

end Returned

end AssetInventory.DeepAgent

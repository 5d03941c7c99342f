import AssetInventory.DeepAgent.Confinement

/-!
# The gate of custom artifacts

A custom artifact passes twice: the planner takes it from the candidates of the stage, and the collector
asks that the request lists its name.  The candidates are the artifacts of the stage's tier, or a fixed
list if the request has none of that tier; the collector does not look at tiers or platforms.

* `Gated`: what an artifact collected in a stage has passed; `custom_artifact_gated`.
* `Admits`: the collector lets a tool through to the server.
* `agree_iff`: the planner keeps only what the collector admits, exactly if for each stage the request
  has an artifact of the tier or lists the fixed artifacts.
-/

namespace AssetInventory.DeepAgent

open PyJson PyTime Workflow

variable {settings : Settings} {request : InvestigationRequest} {answers : Answers}
  {s : InvestigationState} {n : Node} {step : InvestigationStep} {tool name : String}

/-! ## Tiers and platforms -/

/-- The gate as one would have it: a ref of the artifact that supports the platform and has the tier of
the stage; in the initial stage its name is on the fixed list as well. -/
def GatedByRef (request : InvestigationRequest) (second : Bool) (name : String) : Prop :=
  ∃ ref ∈ request.customArtifacts, ref.name = name ∧
    request.targetPlatform ∈ ref.supportedPlatforms ∧
    (second = false → ref.tier = .one ∧
      customToolPrefix ++ name ∈ tier1CustomTools request.targetPlatform) ∧
    (second = true → ref.tier = .two)

/-- A ref of the artifact with this tier supports the platform. -/
def HasRef (request : InvestigationRequest) (tier : ArtifactTier) (name : String) : Prop :=
  ∃ ref ∈ request.customArtifacts, ref.name = name ∧ ref.tier = tier ∧
    request.targetPlatform ∈ ref.supportedPlatforms

/-- **The gate**: the request lists the artifact; if it has artifacts of the stage's tier, one of them is
this one and supports the platform, else this one is on the fixed list of the stage.  In the initial
stage it is on that list in any case. -/
structure Gated (request : InvestigationRequest) (second : Bool) (name : String) : Prop where
  listed : ∃ ref ∈ request.customArtifacts, ref.name = name
  first : second = false → customToolPrefix ++ name ∈ tier1CustomTools request.targetPlatform
  firstRef : second = false → hasTierN request .one = true → HasRef request .one name
  secondRef : second = true → hasTierN request .two = true → HasRef request .two name
  secondList : second = true → hasTierN request .two = false →
    customToolPrefix ++ name ∈ tier2CustomTools request.targetPlatform

theorem toolName_inj {ref : CustomArtifactRef} (h : ref.toolName = customToolPrefix ++ name) :
    ref.name = name := by
  rw [CustomArtifactRef.toolName, String.append_right_inj] at h
  exact h

theorem mem_initial_of_allowed
    (h : allowedTool (initialCustomToolNames request) request.targetPlatform tool = true)
    (hcustom : startsWith customToolPrefix tool = true) : tool ∈ initialCustomToolNames request := by
  rw [allowedTool, Bool.or_eq_true, decide_eq_true_eq] at h
  rcases h with hpolicy | hmem
  · -- a bridge helper is no custom tool
    obtain ⟨policy, hlookup⟩ := Option.isSome_iff_exists.mp hpolicy
    cases hplatform : request.targetPlatform with
    | windows =>
      rw [hplatform] at hlookup
      exact absurd (not_startsWith_of_lookup hlookup) (by rw [hcustom]; decide)
    | linux =>
      rw [hplatform] at hlookup
      cases hlookup
    | macos =>
      rw [hplatform] at hlookup
      cases hlookup
  · exact hmem

theorem PlanInv.stage (h : PlanInv settings request answers n s)
    (hstep : s.currentStep = some step) (hcustom : startsWith customToolPrefix step.tool = true) :
    (s.tier2Planned = false → step.tool ∈ initialCustomToolNames request) ∧
      (s.tier2Planned = true → step.tool ∈ tier2CustomToolNames request) := by
  rcases h with ⟨-, hnone, -⟩ | ⟨-, p₀, added, hp₀, hunder⟩
  · rw [InvestigationState.currentStep, hnone] at hstep
    cases hstep
  · rw [hunder.currentStep_eq] at hstep
    constructor
    · intro hfirst
      rw [hunder.first hfirst, List.append_nil] at hstep
      exact mem_initial_of_allowed
        ((initialPlan_sane hp₀).allowed step (List.mem_of_getElem? hstep)) hcustom
    · intro hsecond
      rw [List.getElem?_append_right (hunder.second hsecond)] at hstep
      exact hunder.mem_added (List.mem_of_getElem? hstep)

/-- A call for a custom artifact comes from a step for it, which the request lists. -/
theorem exists_step_of_custom {v : GraphVisit} {call : Invocation}
    (hv : v ∈ (investigate settings request answers).visited) (hcall : call ∈ v.events)
    (htool : call.tool = "collect_custom_artifact") :
    ∃ step name, v.before.currentStep = some step ∧ step.tool = customToolPrefix ++ name ∧
      step.tool ∈ customToolNames request ∧
      lookup "artifact" call.arguments = some (.str name) := by
  obtain ⟨hinv, hevents⟩ := planInv_visited hv
  rw [hevents] at hcall
  by_cases hn : v.node = .collect
  · rw [hn] at hcall
    obtain ⟨step, hstep, hcalls⟩ := exists_step_of_call hcall
    rw [hcalls] at hcall
    rcases calls_of_collectAt hcall with ⟨-, hgeneric | ⟨hname, policy, found, hpolicy, -⟩⟩ |
      htriage | ⟨e, sampled, hdetail, -⟩
    · obtain ⟨-, hmem, hargs⟩ := hgeneric
      obtain ⟨ref, href, hrefTool⟩ := mem_customToolNames.mp hmem
      refine ⟨step, ref.name, hstep, hrefTool.symm, hmem, ?_⟩
      rw [hargs, ← hrefTool, dropPrefix_toolName]
      rfl
    · rw [← hname, htool] at hpolicy
      cases hpolicy
    · rw [htriage.1] at htool
      exact absurd htool (by decide)
    · rw [hdetail.1] at htool
      exact absurd htool (by decide)
  · rw [call_of_other_node hn hcall] at htool
    exact absurd htool (by decide)

/-- The triage artifact in the initial stage, listed with the tier of the other stage. -/
def triageFirst : Answers := exampleAnswers (examplePlan "custom:Custom.DFIR.Windows.Triage") []

theorem exists_triageFirst : ∃ v ∈ (investigate (exampleSettings 120000)
    (exampleRequest [triageRef .two] (by decide)) triageFirst).visited, ∃ call ∈ v.events,
      call.tool = "collect_custom_artifact" ∧ v.before.tier2Planned = false ∧
        lookup "artifact" call.arguments = some (.str "Custom.DFIR.Windows.Triage") := by
  decide +kernel

/-- The collector lets a tool through to the server, whichever step it is. -/
def Admits (settings : Settings) (request : InvestigationRequest) (answers : Answers)
    (tool : String) : Prop :=
  ∀ index, ∃ call, call ∈ (collectAt settings request answers index tool).invocations

/-- The server has all the tools that the collection may call. -/
def Exposes (answers : Answers) : Prop :=
  ∃ tools, answers.tools = .ok tools ∧ ∀ name ∈ helperNames, ∃ tool ∈ tools, tool.name = name

/-- The collector admits every step that the planner keeps, from every plan and every proposal of the
model. -/
def Agree (settings : Settings) (request : InvestigationRequest) : Prop :=
  ∀ answers, Exposes answers →
    (∀ p, initialPlan settings request answers = .ok p →
      ∀ step ∈ p.steps, Admits settings request answers step.tool) ∧
    ∀ reduced, ∀ step ∈ tier2Steps request answers reduced,
      Admits settings request answers step.tool

theorem Exposes.getTool (h : Exposes answers) (name message : String)
    (hname : name ∈ helperNames) : ∃ found, getTool answers.tools name message = .ok found := by
  obtain ⟨tools, htools, hall⟩ := h
  rw [htools]
  exact exists_getTool message (hall name hname)

theorem admits_eventLogs (h : Exposes answers) :
    Admits settings request answers "windows_event_logs" := by
  intro index
  obtain ⟨found, hfound⟩ := h.getTool "windows_event_logs_triage"
    "MCP không cung cấp tool windows_event_logs_triage" (by decide)
  have hcalls : ∃ call, call ∈ (triageCall settings request answers index).1 := by
    rw [triageCall, collectEventLogTriage, hfound]
    exact ⟨_, mem_invokeThen.mpr rfl⟩
  obtain ⟨call, hcall⟩ := hcalls
  refine ⟨call, ?_⟩
  rw [collectAt, if_pos rfl, collectEventLog]
  exact List.mem_append_left _ hcall

theorem admits_helper (h : Exposes answers) {policy : ToolPolicy}
    (hpolicy : windowsToolPolicies.lookup tool = some policy) :
    Admits settings request answers tool := by
  by_cases hlogs : tool = "windows_event_logs"
  · rw [hlogs]
    exact admits_eventLogs h
  · intro index
    have hname : tool ∈ helperNames := by
      obtain ⟨l₁, l₂, hsplit, -⟩ := List.lookup_eq_some_iff.mp hpolicy
      rw [helperNames, hsplit]
      simp
    obtain ⟨found, hfound⟩ := h.getTool tool ("MCP không cung cấp tool: " ++ tool) hname
    rw [collectAt, if_neg hlogs, collectGeneric]
    unfold collect
    rw [if_neg (by rw [not_startsWith_of_lookup hpolicy]; simp), hpolicy]
    dsimp only
    rw [if_neg hlogs, hfound]
    exact ⟨_, mem_invokeThen.mpr rfl⟩

/-- **The check of the collector**: a custom tool is admitted exactly if the request lists it. -/
theorem admits_custom_iff (h : Exposes answers) (hcustom : startsWith customToolPrefix tool = true) :
    Admits settings request answers tool ↔ tool ∈ customToolNames request := by
  have hlogs : tool ≠ "windows_event_logs" := by
    rintro rfl
    exact absurd hcustom (by decide)
  have hcollect : ∀ index, (collectAt settings request answers index tool).invocations =
      (collectCustom answers.reprs settings answers.tools tool (customToolNames request)
        request.clientId (some (orgOf request.orgId settings)) (answers.collect index)).1 := by
    intro index
    rw [collectAt, if_neg hlogs, collectGeneric, collect, if_pos hcustom]
  constructor
  · intro hadmits
    obtain ⟨call, hcall⟩ := hadmits 0
    rw [hcollect] at hcall
    by_contra hnot
    rw [collectCustom, if_pos hnot, refuse_fst] at hcall
    cases hcall
  · intro hlisted index
    obtain ⟨found, hfound⟩ := h.getTool "collect_custom_artifact"
      "MCP không cung cấp tool collect_custom_artifact" (by decide)
    rw [hcollect, collectCustom, if_neg (not_not.mpr hlisted), hfound]
    exact ⟨_, mem_invokeThen.mpr rfl⟩

theorem admits_initial (h : Exposes answers) (hlist : hasTierN request .one = true ∨
      ∀ tool ∈ tier1CustomTools request.targetPlatform, tool ∈ customToolNames request)
    (htool : tool ∈ initialCustomToolNames request) : Admits settings request answers tool := by
  refine (admits_custom_iff h (startsWith_of_mem_initial htool)).mpr ?_
  rcases mem_initialCustomToolNames.mp htool with ⟨hnone, hfixed⟩ | ⟨ref, href, hname, -⟩
  · rcases hlist with hsome | hall
    · rw [hsome] at hnone
      cases hnone
    · exact hall tool hfixed
  · exact mem_customToolNames.mpr ⟨ref, href, hname⟩

theorem admits_tier2 (h : Exposes answers) (hlist : hasTierN request .two = true ∨
      ∀ tool ∈ tier2CustomTools request.targetPlatform, tool ∈ customToolNames request)
    (htool : tool ∈ tier2CustomToolNames request) : Admits settings request answers tool := by
  refine (admits_custom_iff h (startsWith_of_mem_tier2Names htool)).mpr ?_
  rcases mem_tier2CustomToolNames.mp htool with ⟨hnone, hfixed⟩ | ⟨ref, href, hname, -⟩
  · rcases hlist with hsome | hall
    · rw [hsome] at hnone
      cases hnone
    · exact hall tool hfixed
  · exact mem_customToolNames.mpr ⟨ref, href, hname⟩

/-! ## Plans of one tool -/

theorem exposes_exampleAnswers (plan : InvestigationPlan) (tier2 : List (Option InvestigationStep)) :
    Exposes (exampleAnswers plan tier2) :=
  ⟨_, rfl, by decide⟩

theorem initialPlan_examplePlan (settings : Settings) (tier2 : List (Option InvestigationStep))
    (htool : tool ∈ initialCustomToolNames request) :
    ∃ p, initialPlan settings request (exampleAnswers (examplePlan tool) tier2) = .ok p ∧
      exampleStep tool ∈ p.steps := by
  have hallowed : allowedTool (initialCustomToolNames request) request.targetPlatform
      (exampleStep tool).tool = true := by
    rw [exampleStep, allowedTool, decide_eq_true htool, Bool.or_true]
  have hplan : ∃ p, initialPlan settings request (exampleAnswers (examplePlan tool) tier2) = .ok p ∧
      p.steps = [exampleStep tool] := sanitizePlan_singleton rfl hallowed
  obtain ⟨p, hp, hsteps⟩ := hplan
  refine ⟨p, hp, ?_⟩
  rw [hsteps]
  exact List.mem_singleton.mpr rfl

theorem exampleStep_mem_tier2Steps (plan : InvestigationPlan)
    (htool : tool ∈ tier2CustomToolNames request) :
    exampleStep tool ∈ tier2Steps request (exampleAnswers plan [some (exampleStep tool)]) [] := by
  have hitems : (exampleAnswers plan [some (exampleStep tool)]).tier2Items =
      [some (exampleStep tool)] := rfl
  have hfresh : ¬ ((exampleStep tool).tool ∉ tier2CustomToolNames request ∨
      (exampleStep tool).tool ∈ ([] : List EvidenceItem).map EvidenceItem.tool) := by
    simp [exampleStep, htool]
  rw [tier2Steps, hitems, acceptTier2, if_neg hfresh]
  split_ifs <;> exact List.mem_singleton.mpr rfl

/-- **Planner and collector agree** exactly if, for each stage, the request has an artifact of the tier
or lists the fixed artifacts of the platform. -/
theorem agree_iff (settings : Settings) (request : InvestigationRequest) : Agree settings request ↔
      (hasTierN request .one = true ∨
        ∀ tool ∈ tier1CustomTools request.targetPlatform, tool ∈ customToolNames request) ∧
      (hasTierN request .two = true ∨
        ∀ tool ∈ tier2CustomTools request.targetPlatform, tool ∈ customToolNames request) := by
  constructor
  · intro hagree
    constructor
    · rw [Classical.or_iff_not_imp_left, Bool.not_eq_true]
      intro hnone tool htool
      have hcandidate : tool ∈ initialCustomToolNames request :=
        mem_initialCustomToolNames.mpr (Or.inl ⟨hnone, htool⟩)
      have hexposes := exposes_exampleAnswers (examplePlan tool) []
      obtain ⟨p, hp, hstep⟩ := initialPlan_examplePlan settings [] hcandidate
      exact (admits_custom_iff hexposes (startsWith_of_mem_tier1 htool)).mp
        ((hagree _ hexposes).1 p hp _ hstep)
    · rw [Classical.or_iff_not_imp_left, Bool.not_eq_true]
      intro hnone tool htool
      have hcandidate : tool ∈ tier2CustomToolNames request :=
        mem_tier2CustomToolNames.mpr (Or.inl ⟨hnone, htool⟩)
      have hexposes := exposes_exampleAnswers (examplePlan tool) [some (exampleStep tool)]
      exact (admits_custom_iff hexposes (startsWith_of_mem_tier2 htool)).mp
        ((hagree _ hexposes).2 [] _ (exampleStep_mem_tier2Steps _ hcandidate))
  · rintro ⟨hone, htwo⟩ answers hexposes
    constructor
    · intro p hp step hstep
      have hallowed := (initialPlan_sane hp).allowed step hstep
      have hpermitted : Permitted request step.tool := Or.inl hallowed
      rcases hpermitted.cases with ⟨-, hpolicy⟩ | hcustom
      · obtain ⟨policy, hlookup⟩ := Option.isSome_iff_exists.mp hpolicy
        exact admits_helper hexposes hlookup
      · exact admits_initial hexposes hone (mem_initial_of_allowed hallowed hcustom)
    · intro reduced step hstep
      exact admits_tier2 hexposes htwo (mem_candidates_of_tier2 hstep)

/-- **A plan that is refused**: without artifacts in the request, the triage artifact of Windows is
planned and not collected. -/
theorem not_agree_without_artifacts :
    ¬ Agree (exampleSettings 120000) (exampleRequest [] (by decide)) := by
  intro hagree
  have htool : "custom:Custom.DFIR.Windows.Triage" ∈
      initialCustomToolNames (exampleRequest [] (by decide)) := by decide
  have hexposes := exposes_exampleAnswers (examplePlan "custom:Custom.DFIR.Windows.Triage") []
  obtain ⟨p, hp, hstep⟩ := initialPlan_examplePlan (exampleSettings 120000) [] htool
  have hlisted := (admits_custom_iff hexposes (by decide)).mp ((hagree _ hexposes).1 p hp _ hstep)
  revert hlisted
  decide

end AssetInventory.DeepAgent

import AssetInventory.DeepAgent.EvidenceIds
import AssetInventory.DeepAgent.Expansions

/-!
# Confinement

What a run may ask of the MCP server.  The plan, the expansions and the added steps come from the model,
the event ids from the server; whatever they are, each call of the collection names the target and the
organisation of the request, a tool of the catalogue or an artifact of the request, and a window inside
the one of the request.

* `GenericCall`, `TriageCall`, `DetailCall`: the three kinds of calls, with their arguments.
* `calls_of_collectAt`: a step makes only such calls.
* `Confined`, `investigation_confined`: what they have in common, for every call of a run.
-/

namespace AssetInventory.DeepAgent

open PyJson PyTime Workflow

/-! ## The arguments of a call -/

variable {settings : Settings} {request : InvestigationRequest} {answers : Answers} {key tool : String}

theorem key_windowArguments {policy : ToolPolicy} {capability : Option ToolCapability}
    {tool : McpTool} {timeFrom timeTo : Time} (h : key ≠ "DateAfter" ∧ key ≠ "DateBefore") :
    lookup key (windowArguments policy capability tool timeFrom timeTo) = none := by
  refine lookup_eq_none fun p hp => ?_
  unfold windowArguments at hp
  split_ifs at hp
  · rcases List.mem_cons.mp hp with rfl | hp
    · exact h.1.symm
    · rw [List.mem_singleton.mp hp]
      exact h.2.symm
  · cases hp

theorem key_pageArguments {capability : Option ToolCapability} {tool : McpTool} {limit offset : ℤ}
    (h : key ≠ "limit" ∧ key ≠ "offset") :
    lookup key (pageArguments capability tool limit offset) = none := by
  refine lookup_eq_none fun p hp => ?_
  unfold pageArguments at hp
  split_ifs at hp
  · rcases List.mem_cons.mp hp with rfl | hp
    · exact h.1.symm
    · rw [List.mem_singleton.mp hp]
      exact h.2.symm
  · cases hp

/-! ## The calls of a step -/

/-- A call of the generic collection of a tool: a custom artifact, or a bridge helper. -/
def GenericCall (settings : Settings) (request : InvestigationRequest) (tool : String)
    (call : Invocation) : Prop :=
  (call.tool = "collect_custom_artifact" ∧ tool ∈ customToolNames request ∧
    call.arguments = targetArguments settings request.clientId
        (some (orgOf request.orgId settings)) ++
      [("artifact", .str (dropPrefix customToolPrefix tool)), ("limit", .num 50),
        ("offset", .num 0)]) ∨
  (call.tool = tool ∧ ∃ policy found, windowsToolPolicies.lookup tool = some policy ∧
    call.arguments = targetArguments settings request.clientId
        (some (orgOf request.orgId settings)) ++
      windowArguments policy (toolCapabilities.lookup tool) found request.timeRange.from_
        request.timeRange.to_ ++
      pageArguments (toolCapabilities.lookup tool) found 50 0)

def TriageCall (settings : Settings) (request : InvestigationRequest) (call : Invocation) : Prop :=
  call.tool = "windows_event_logs_triage" ∧
    call.arguments = targetArguments settings request.clientId
        (some (orgOf request.orgId settings)) ++
      logWindow request.timeRange.from_ request.timeRange.to_ ++
      [("profile_id", .str "security_core"), ("max_rows", .num 100),
        ("fields", .str "EventTime,Computer,Channel,Provider,EventID")]

/-- The event ids that a triage call has brought. -/
def SampledBy (R : Reprs) (triage : Invocation) (sampled : List String) : Prop :=
  triage.tool = "windows_event_logs_triage" ∧ ∃ payload, triage.answer = .payload payload ∧
    sampled = sampledEventIds R (triageResult (dataEntries payload))

def DetailCall (settings : Settings) (request : InvestigationRequest) (e : EventLogExpansion)
    (call : Invocation) : Prop :=
  call.tool = "windows_event_logs_detail" ∧
    call.arguments = targetArguments settings request.clientId
        (some (orgOf request.orgId settings)) ++ logWindow e.dateAfter e.dateBefore ++
      [("max_rows", .num 50)] ++ [] ++ [("event_ids", .str (join "," e.eventIds))]

variable {index : ℕ} {call : Invocation}

theorem genericCall_of_collect
    (h : call ∈ (collectGeneric settings request answers index tool).invocations) :
    GenericCall settings request tool call := by
  unfold collectGeneric at h
  dsimp only at h
  rw [collect] at h
  by_cases hcustom : startsWith customToolPrefix tool = true
  · rw [if_pos hcustom, collectCustom] at h
    by_cases hnames : tool ∈ customToolNames request
    · rw [if_neg (not_not.mpr hnames)] at h
      split at h
      · cases h
      · rename_i found hfound
        rw [mem_invokeThen] at h
        subst h
        exact Or.inl ⟨name_of_getTool hfound, hnames, rfl⟩
    · rw [if_pos hnames] at h
      cases h
  · rw [if_neg hcustom] at h
    cases hpolicy : windowsToolPolicies.lookup tool with
    | none =>
      simp only [hpolicy] at h
      cases h
    | some policy =>
      simp only [hpolicy] at h
      by_cases hlogs : tool = "windows_event_logs"
      · rw [if_pos hlogs] at h
        cases h
      · rw [if_neg hlogs] at h
        split at h
        · cases h
        · rename_i found hfound
          rw [mem_invokeThen] at h
          subst h
          exact Or.inr ⟨name_of_getTool hfound, policy, found, hpolicy, rfl⟩

theorem triageCall_spec (h : call ∈ (triageCall settings request answers index).1) :
    TriageCall settings request call := by
  unfold triageCall collectEventLogTriage at h
  split at h
  · cases h
  · rename_i found hfound
    rw [mem_invokeThen] at h
    subst h
    exact ⟨name_of_getTool hfound, rfl⟩

/-- A triage that returns has been answered, and samples the ids of the answer. -/
theorem exists_triage {data : List (String × Json)}
    (h : (triageCall settings request answers index).2 = .ok data) :
    ∃ triage ∈ (triageCall settings request answers index).1,
      SampledBy answers.reprs triage (sampledEventIds answers.reprs data) := by
  unfold triageCall collectEventLogTriage at h ⊢
  split at h
  · cases h
  · rename_i found hfound
    refine ⟨_, mem_invokeThen.mpr rfl, name_of_getTool hfound, ?_⟩
    unfold invokeThen invokeTool at h
    dsimp only at h ⊢
    cases hanswer : answers.triage index with
    | timedOut =>
      rw [hanswer] at h
      cases h
    | raised e =>
      rw [hanswer] at h
      cases h
    | payload payload =>
      rw [hanswer] at h
      dsimp only at h
      unfold sourceResult at h
      split at h
      · cases h
      · split_ifs at h
        rw [Except.ok.injEq] at h
        exact ⟨payload, rfl, by rw [h]⟩

theorem detailCall_spec {detailIdx : ℕ} {e : EventLogExpansion}
    (h : call ∈ (detailCall settings request answers index detailIdx e).1) :
    DetailCall settings request e call := by
  unfold detailCall collectEventLogDetail at h
  rw [if_neg (by decide), if_neg (by simp), if_pos rfl, if_neg e.eventIds_ne] at h
  split at h
  · cases h
  · rename_i found hfound
    rw [mem_invokeThen] at h
    subst h
    exact ⟨name_of_getTool hfound, rfl⟩

/-- An expansion that is executed lies in the range and names ids of the sample. -/
theorem within_of_mem_numbered {sampled : List String}
    {x : EventLogExpansion × ℕ} (h : x ∈ numbered (planExpansions request answers index sampled).1) :
    x.1.Within request.timeRange sampled := by
  have hmem : x.1 ∈ (planExpansions request answers index sampled).1 := by
    rw [numbered] at h
    exact List.mem_of_mem_take (List.fst_mem_of_mem_zipIdx h)
  unfold planExpansions at hmem
  split_ifs at hmem
  · cases hmem
  · split at hmem
    · exact validateEventLogExpansions_within hmem
    · cases hmem

/-- **The calls of a step.** -/
theorem calls_of_collectAt
    (h : call ∈ (collectAt settings request answers index tool).invocations) :
    (tool ≠ "windows_event_logs" ∧ GenericCall settings request tool call) ∨
    TriageCall settings request call ∨
    ∃ e sampled, DetailCall settings request e call ∧ e.Within request.timeRange sampled ∧
      ∃ triage ∈ (collectAt settings request answers index tool).invocations,
        SampledBy answers.reprs triage sampled := by
  unfold collectAt at h ⊢
  split_ifs at h ⊢ with htool
  · right
    unfold collectEventLog at h ⊢
    dsimp only at h ⊢
    rcases List.mem_append.mp h with h | h
    · exact Or.inl (triageCall_spec h)
    · right
      obtain ⟨x, hx, hcall⟩ := List.mem_flatMap.mp h
      cases hresult : (triageCall settings request answers index).2 with
      | error e =>
        rw [hresult] at hx
        cases hx
      | ok data =>
        rw [hresult] at hx
        obtain ⟨triage, htriage, hsampled⟩ := exists_triage hresult
        exact ⟨x.1, _, detailCall_spec hcall, within_of_mem_numbered hx, triage,
          List.mem_append_left _ htriage, hsampled⟩
  · exact Or.inl ⟨htool, genericCall_of_collect h⟩

/-! ## What the calls have in common -/

/-- **A confined call** of a run whose calls are `calls`. -/
structure Confined (settings : Settings) (request : InvestigationRequest) (R : Reprs)
    (calls : List Invocation) (call : Invocation) : Prop where
  client : lookup "client_id" call.arguments = some (.str request.clientId)
  org : lookup "org_id" call.arguments = some (.str (orgOf request.orgId settings))
  /-- A bridge helper, on Windows only, a typed event-log helper, or an artifact of the request. -/
  tool : ((windowsToolPolicies.lookup call.tool).isSome = true ∧ request.targetPlatform = .windows) ∨
    call.tool = "windows_event_logs_triage" ∨ call.tool = "windows_event_logs_detail" ∨
    (call.tool = "collect_custom_artifact" ∧ ∃ ref ∈ request.customArtifacts,
      lookup "artifact" call.arguments = some (.str ref.name))
  /-- A window lies inside the one of the request; that of a detail call is an hour at most. -/
  window : ∀ key, key = "DateAfter" ∨ key = "DateBefore" → ∀ x, lookup key call.arguments = some x →
    ∃ a b, lookup "DateAfter" call.arguments = some (.str (isoZ a)) ∧
      lookup "DateBefore" call.arguments = some (.str (isoZ b)) ∧
      request.timeRange.from_ ≤ a ∧ a ≤ b ∧ b ≤ request.timeRange.to_ ∧
      (call.tool = "windows_event_logs_detail" → b - a ≤ minutes 60)
  /-- A detail call asks for event ids, ... -/
  ids : call.tool = "windows_event_logs_detail" → lookup "event_ids" call.arguments ≠ none
  /-- ... and those asked for have been sampled by a triage call of the run. -/
  sampled : ∀ x, lookup "event_ids" call.arguments = some x →
    ∃ eventIds, x = .str (join "," eventIds) ∧ ∃ triage ∈ calls, ∃ sampled,
      SampledBy R triage sampled ∧ ∀ id ∈ eventIds, id ∈ sampled

variable {call : Invocation} {calls : List Invocation} {R : Reprs} {tool : String}

/-- The target is the first thing in the arguments, and nothing overrides it. -/
theorem lookup_target (settings : Settings) {rest : List (String × Json)} (clientId : String)
    (orgId : Option String) (h : lookup "client_id" rest = none ∧ lookup "org_id" rest = none) :
    lookup "client_id" (targetArguments settings clientId orgId ++ rest) = some (.str clientId) ∧
      lookup "org_id" (targetArguments settings clientId orgId ++ rest) =
        some (.str (orgOf orgId settings)) := by
  rw [lookup_append, lookup_append, h.1, h.2]
  exact ⟨rfl, rfl⟩

theorem GenericCall.confined (hcall : GenericCall settings request tool call)
    (hpermitted : Permitted request tool) (htool : tool ≠ "windows_event_logs_detail") :
    Confined settings request R calls call := by
  rcases hcall with ⟨hname, hmem, hargs⟩ | ⟨rfl, policy, found, hpolicy, hargs⟩
  · obtain ⟨ref, href, rfl⟩ := mem_customToolNames.mp hmem
    have hnone : lookup "DateAfter" call.arguments = none ∧
        lookup "DateBefore" call.arguments = none ∧ lookup "event_ids" call.arguments = none := by
      rw [hargs]
      exact ⟨rfl, rfl, rfl⟩
    refine ⟨?_, ?_, ?_, ?_, ?_, ?_⟩
    · rw [hargs]
      exact (lookup_target _ _ _ ⟨rfl, rfl⟩).1
    · rw [hargs, (lookup_target _ _ _ ⟨rfl, rfl⟩).2, orgOf_orgOf]
    · refine Or.inr (Or.inr (Or.inr ⟨hname, ref, href, ?_⟩))
      rw [hargs, dropPrefix_toolName]
      rfl
    · rintro key (rfl | rfl) x hx
      · rw [hnone.1] at hx
        cases hx
      · rw [hnone.2.1] at hx
        cases hx
    · intro hdetail
      rw [hname] at hdetail
      exact absurd hdetail (by decide)
    · intro x hx
      rw [hnone.2.2] at hx
      cases hx
  · have hplatform : request.targetPlatform = .windows := by
      rcases hpermitted.cases with ⟨hplatform, -⟩ | hcustom
      · exact hplatform
      · rw [not_startsWith_of_lookup hpolicy] at hcustom
        cases hcustom
    -- the page arguments come last, the window before them
    have hother : ∀ key, key ≠ "DateAfter" ∧ key ≠ "DateBefore" → key ≠ "limit" ∧ key ≠ "offset" →
        lookup key (windowArguments policy (toolCapabilities.lookup call.tool) found
          request.timeRange.from_ request.timeRange.to_ ++
          pageArguments (toolCapabilities.lookup call.tool) found 50 0) = none := by
      intro key hwindow hpage
      rw [lookup_append, key_pageArguments hpage, key_windowArguments hwindow]
      rfl
    rw [List.append_assoc] at hargs
    have htarget := lookup_target settings request.clientId
      (some (orgOf request.orgId settings))
      ⟨hother "client_id" (by decide) (by decide), hother "org_id" (by decide) (by decide)⟩
    refine ⟨?_, ?_, Or.inl ⟨by rw [hpolicy]; rfl, hplatform⟩, ?_, fun h => absurd h htool, ?_⟩
    · rw [hargs]
      exact htarget.1
    · rw [hargs, htarget.2, orgOf_orgOf]
    · intro key hkey x hx
      have hpage : lookup "DateAfter" (pageArguments (toolCapabilities.lookup call.tool) found 50 0) =
          none ∧ lookup "DateBefore"
            (pageArguments (toolCapabilities.lookup call.tool) found 50 0) = none :=
        ⟨key_pageArguments (by decide), key_pageArguments (by decide)⟩
      refine ⟨request.timeRange.from_, request.timeRange.to_, ?_, ?_, le_refl _,
        request.timeRange.from_lt_to.le, le_refl _, fun h => absurd h htool⟩ <;>
      · rw [hargs, lookup_append, lookup_append]
        rw [hargs, lookup_append, lookup_append] at hx
        unfold windowArguments at hx ⊢
        split_ifs at hx ⊢ with hwindow
        · simp only [hpage]
          rfl
        · -- without a window there is no such key
          rcases hkey with rfl | rfl
          · rw [hpage.1] at hx
            cases hx
          · rw [hpage.2] at hx
            cases hx
    · intro x hx
      rw [hargs, lookup_append, hother "event_ids" (by decide) (by decide)] at hx
      cases hx

theorem TriageCall.confined (hcall : TriageCall settings request call) :
    Confined settings request R calls call := by
  obtain ⟨hname, hargs⟩ := hcall
  have hdetail : call.tool ≠ "windows_event_logs_detail" := by
    rw [hname]
    decide
  refine ⟨?_, ?_, Or.inr (Or.inl hname), ?_, fun h => absurd h hdetail, ?_⟩
  · rw [hargs]
    rfl
  · rw [hargs, List.append_assoc, (lookup_target _ _ _ ⟨rfl, rfl⟩).2, orgOf_orgOf]
  · intro key _ x _
    refine ⟨request.timeRange.from_, request.timeRange.to_, ?_, ?_, le_refl _,
      request.timeRange.from_lt_to.le, le_refl _, fun h => absurd h hdetail⟩ <;>
    · rw [hargs]
      rfl
  · intro x hx
    rw [hargs] at hx
    cases hx

theorem DetailCall.confined {e : EventLogExpansion} {sampled : List String} {triage : Invocation}
    (hcall : DetailCall settings request e call) (hwithin : e.Within request.timeRange sampled)
    (htriage : triage ∈ calls) (hsampled : SampledBy R triage sampled) :
    Confined settings request R calls call := by
  obtain ⟨hname, hargs⟩ := hcall
  refine ⟨?_, ?_, Or.inr (Or.inr (Or.inl hname)), ?_, ?_, ?_⟩
  · rw [hargs]
    rfl
  · rw [hargs, List.append_assoc, List.append_assoc, List.append_assoc,
      (lookup_target _ _ _ ⟨rfl, rfl⟩).2, orgOf_orgOf]
  · intro key _ x _
    refine ⟨e.dateAfter, e.dateBefore, ?_, ?_, hwithin.from_le, e.after_le_before, hwithin.le_to,
      fun _ => e.duration_le⟩ <;>
    · rw [hargs]
      rfl
  · intro _
    rw [hargs]
    nofun
  · intro x hx
    rw [hargs] at hx
    cases hx
    exact ⟨e.eventIds, rfl, triage, htriage, sampled, hsampled, hwithin.sampled⟩

/-- The call that verifies the target is the only one outside the collection. -/
theorem call_of_other_node {n : Node} {s : InvestigationState} (hn : n ≠ .collect)
    (h : call ∈ ((investigationGraph settings request answers).node n s).1) :
    call.tool = "list_clients" := by
  cases n with
  | verifyTarget =>
    have hcall : call ∈ (verifyTarget answers.reprs answers.tools request.clientId
      (some (orgOf request.orgId settings)) answers.verify).1 := h
    unfold verifyTarget at hcall
    split at hcall
    · cases hcall
    · rename_i found hfound
      rw [mem_invokeThen] at hcall
      rw [hcall]
      exact name_of_getTool hfound
  | collect => exact absurd rfl hn
  | plan => cases h
  | planTier2 => cases h
  | assess => cases h
  | renderReport => cases h

theorem exists_step_of_call {s : InvestigationState}
    (h : call ∈ ((investigationGraph settings request answers).node .collect s).1) :
    ∃ step, s.currentStep = some step ∧
      ((investigationGraph settings request answers).node .collect s).1 =
        (collectAt settings request answers s.stepIndex step.tool).invocations := by
  cases hstep : s.currentStep with
  | none =>
    have hcall : call ∈ (collectNode settings request answers s).1 := h
    unfold collectNode at hcall
    split at hcall
    · cases hcall
    · rename_i plan hplan
      rw [InvestigationState.currentStep, hplan, Option.bind_some] at hstep
      simp only [hstep] at hcall
      cases hcall
  | some step =>
    refine ⟨step, rfl, ?_⟩
    show (collectNode settings request answers s).1 = _
    rw [collectNode_of_step hstep]

/-- **Confinement.**  Every call of a run is the verification of the target or is confined. -/
theorem investigation_confined (hcall : call ∈ (investigate settings request answers).events) :
    call.tool = "list_clients" ∨
      Confined settings request answers.reprs (investigate settings request answers).events call := by
  obtain ⟨v, hv, hmem⟩ := List.mem_flatMap.mp hcall
  obtain ⟨hinv, hevents⟩ := planInv_visited hv
  rw [hevents] at hmem
  by_cases hn : v.node = .collect
  · rw [hn] at hmem hevents
    obtain ⟨step, hstep, hcalls⟩ := exists_step_of_call hmem
    have hpermitted := hinv.permitted_currentStep hstep
    have hall : ∀ c ∈ (collectAt settings request answers v.before.stepIndex
        step.tool).invocations, c ∈ (investigate settings request answers).events :=
      fun c hc => List.mem_flatMap.mpr ⟨v, hv, by rw [hevents, hcalls]; exact hc⟩
    rw [hcalls] at hmem
    right
    rcases calls_of_collectAt hmem with ⟨-, hgeneric⟩ | htriage | ⟨e, sampled, hdetail, hwithin,
      triage, htriage, hsampled⟩
    · exact hgeneric.confined hpermitted hpermitted.ne_detail
    · exact htriage.confined
    · exact hdetail.confined hwithin (hall _ htriage) hsampled
  · exact Or.inl (call_of_other_node hn hmem)

theorem investigation_confined_detail :
    ∃ call : Invocation, call.tool = "windows_event_logs_detail" ∧
      Confined (exampleSettings 120000) (exampleRequest [] (by decide)) logsFirst.reprs
        (investigate (exampleSettings 120000) (exampleRequest [] (by decide)) logsFirst).events
        call := by
  have hsome : ((investigate (exampleSettings 120000) (exampleRequest [] (by decide))
      logsFirst).events.find? fun call =>
        decide (call.tool = "windows_event_logs_detail")).isSome = true := by
    decide +kernel
  obtain ⟨call, hcall⟩ := Option.isSome_iff_exists.mp hsome
  have htool : call.tool = "windows_event_logs_detail" := by
    simpa using List.find?_some hcall
  refine ⟨call, htool, ?_⟩
  rcases investigation_confined (List.mem_of_find?_eq_some hcall) with hlist | hconfined
  · rw [htool] at hlist
    exact absurd hlist (by decide)
  · exact hconfined

end AssetInventory.DeepAgent

import AssetInventory.DeepAgent.Graph

/-!
# The plan along a run

Where a run stands: which plan it made, what the second stage added to it, and how far the collection
has come.

* `Underway`: the plan in a state after planning.  `PlanInv` is the invariant of all nodes.
* `planInv_next`: one visit preserves it; `planInv_visited`: it holds before every visit.
* `PlanInv.permitted`: every tool in a plan has passed one of the two filters.
-/

namespace AssetInventory.DeepAgent

open PyJson Workflow

/-! ## What the second stage adds -/

/-- The proposed steps that may be added after the tools `existing`, in the order of the answer. -/
def freshProposals (candidates existing : List String) (items : List (Option InvestigationStep)) :
    List InvestigationStep :=
  (items.filterMap id).filter fun step =>
    decide (step.tool ∈ candidates) && decide (step.tool ∉ existing)

/-- The steps with a tool that no earlier step has. -/
def dedupTools : List InvestigationStep → List InvestigationStep
  | [] => []
  | step :: steps => step :: (dedupTools steps).filter fun other => decide (other.tool ≠ step.tool)

theorem dedupTools_filter (p : String → Bool) (steps : List InvestigationStep) :
    dedupTools (steps.filter fun step => p step.tool) =
      (dedupTools steps).filter fun step => p step.tool := by
  induction steps with
  | nil => rfl
  | cons step steps ih =>
    by_cases h : p step.tool = true
    · rw [List.filter_cons, if_pos h, dedupTools, dedupTools, List.filter_cons, if_pos h, ih,
        List.filter_comm]
    · rw [List.filter_cons, if_neg h, dedupTools, List.filter_cons, if_neg h, ih,
        List.filter_filter]
      refine List.filter_congr fun other _ => ?_
      by_cases hp : p other.tool = true
      · have hne : other.tool ≠ step.tool := fun heq => h (heq ▸ hp)
        simp [hp, hne]
      · simp [hp]

variable {step : InvestigationStep}

theorem mem_of_mem_dedupTools {steps : List InvestigationStep}
    (h : step ∈ dedupTools steps) : step ∈ steps := by
  induction steps with
  | nil => exact h
  | cons first steps ih =>
    rcases List.mem_cons.mp h with rfl | h
    · exact List.mem_cons_self
    · exact List.mem_cons_of_mem _ (ih (List.mem_of_mem_filter h))

theorem nodup_dedupTools (steps : List InvestigationStep) :
    ((dedupTools steps).map InvestigationStep.tool).Nodup := by
  induction steps with
  | nil => exact List.nodup_nil
  | cons step steps ih =>
    rw [dedupTools, List.map_cons, List.nodup_cons]
    constructor
    · intro hmem
      obtain ⟨other, hother, htool⟩ := List.mem_map.mp hmem
      have hne := (List.mem_filter.mp hother).2
      rw [decide_eq_true_eq] at hne
      exact hne htool
    · exact ih.sublist (List.Sublist.map _ List.filter_sublist)

theorem freshProposals_cons (candidates existing : List String) (step : InvestigationStep)
    (items : List (Option InvestigationStep)) :
    freshProposals candidates existing (some step :: items) =
      if step.tool ∉ candidates ∨ step.tool ∈ existing then freshProposals candidates existing items
      else step :: freshProposals candidates existing items := by
  have hcons : (some step :: items).filterMap id = step :: items.filterMap id := rfl
  rw [freshProposals, hcons, List.filter_cons]
  by_cases h : step.tool ∉ candidates ∨ step.tool ∈ existing
  · rw [if_pos h, if_neg (by rcases h with h | h <;> simp [h])]
    rfl
  · rw [if_neg h, if_pos (by rw [not_or, not_not] at h; simp [h])]
    rfl

theorem freshProposals_snoc (candidates existing : List String) (tool : String)
    (items : List (Option InvestigationStep)) :
    freshProposals candidates (existing ++ [tool]) items =
      (freshProposals candidates existing items).filter fun step => decide (step.tool ≠ tool) := by
  rw [freshProposals, freshProposals, List.filter_filter]
  refine List.filter_congr fun step _ => ?_
  simp only [List.mem_append, List.mem_singleton, not_or, Bool.decide_and]
  cases decide (step.tool ∈ candidates) <;> cases decide (step.tool ∉ existing) <;>
    cases decide (step.tool ≠ tool) <;> rfl

/-- **The loop of the second stage** takes the first two fresh proposals with different tools. -/
theorem acceptTier2_eq (candidates existing : List String) (accepted : List InvestigationStep)
    (items : List (Option InvestigationStep)) (hlen : accepted.length < maxTier2Steps) :
    acceptTier2 candidates existing accepted items = accepted ++
      (dedupTools (freshProposals candidates existing items)).take
        (maxTier2Steps - accepted.length) := by
  induction items generalizing existing accepted with
  | nil => simp [acceptTier2, freshProposals, dedupTools]
  | cons item items ih =>
    cases item with
    | none => exact ih existing accepted hlen
    | some step =>
      rw [acceptTier2]
      by_cases hskip : step.tool ∉ candidates ∨ step.tool ∈ existing
      · rw [if_pos hskip, ih existing accepted hlen, freshProposals_cons, if_pos hskip]
      · rw [if_neg hskip, freshProposals_cons, if_neg hskip]
        obtain ⟨k, hk⟩ : ∃ k, maxTier2Steps - accepted.length = k + 1 :=
          Nat.exists_eq_add_of_lt (Nat.sub_pos_of_lt hlen) |>.imp fun k hk => by omega
        rw [dedupTools, hk, List.take_succ_cons, ← dedupTools_filter
          (fun tool => decide (tool ≠ step.tool)), ← freshProposals_snoc]
        have hsucc : (accepted ++ [step]).length = accepted.length + 1 := by simp
        split_ifs with hfull
        · have hzero : k = 0 := by omega
          rw [hzero, List.take_zero]
        · rw [ih (existing ++ [step.tool]) (accepted ++ [step]) (by omega), List.append_assoc,
            List.singleton_append]
          have hrest : maxTier2Steps - (accepted ++ [step]).length = k := by omega
          rw [hrest]

theorem tier2Steps_eq (request : InvestigationRequest) (answers : Answers)
    (reduced : List EvidenceItem) : tier2Steps request answers reduced =
      (dedupTools (freshProposals (tier2CustomToolNames request)
        (reduced.map EvidenceItem.tool) answers.tier2Items)).take maxTier2Steps :=
  acceptTier2_eq _ _ [] _ Nat.two_pos

section Added

variable {request : InvestigationRequest} {answers : Answers} {reduced : List EvidenceItem}
  {step : InvestigationStep}

theorem length_tier2Steps_le : (tier2Steps request answers reduced).length ≤ 2 := by
  rw [tier2Steps_eq]
  exact List.length_take_le _ _

theorem nodup_tier2Steps :
    ((tier2Steps request answers reduced).map InvestigationStep.tool).Nodup := by
  rw [tier2Steps_eq]
  exact (nodup_dedupTools _).sublist (List.Sublist.map _ (List.take_sublist _ _))

theorem mem_candidates_of_tier2 (h : step ∈ tier2Steps request answers reduced) :
    step.tool ∈ tier2CustomToolNames request := by
  rw [tier2Steps_eq] at h
  have hfresh := List.mem_filter.mp (mem_of_mem_dedupTools (List.mem_of_mem_take h))
  rw [Bool.and_eq_true, decide_eq_true_eq] at hfresh
  exact hfresh.2.1

end Added

/-! ## Where a run stands -/

/-- **After planning.**  The plan is the initial one, `p₀`, followed by the steps that the second stage
added, and the collection has come to `stepIndex`. -/
structure Underway (request : InvestigationRequest) (answers : Answers) (n : Node)
    (p₀ : InvestigationPlan) (added : List InvestigationStep) (s : InvestigationState) : Prop where
  plan : s.plan.map InvestigationPlan.steps = some (p₀.steps ++ added)
  index_le : s.stepIndex ≤ (p₀.steps ++ added).length
  /-- Steps are added by the second stage only, ... -/
  first : s.tier2Planned = false → added = []
  /-- ... after the initial plan has been collected, ... -/
  second : s.tier2Planned = true → p₀.steps.length ≤ s.stepIndex
  /-- ... and are those it accepted. -/
  accepted : added = [] ∨ ∃ reduced, added = tier2Steps request answers reduced
  atCollect : n = .collect → s.stepIndex < (p₀.steps ++ added).length
  atTier2 : n = .planTier2 → s.tier2Planned = false ∧ s.stepIndex = p₀.steps.length
  atEnd : n = .assess ∨ n = .renderReport → s.stepIndex = (p₀.steps ++ added).length

def Node.beforePlan : Node → Bool
  | .verifyTarget | .plan => true
  | _ => false

/-- **The invariant of a run**, about the next node and its state. -/
def PlanInv (settings : Settings) (request : InvestigationRequest) (answers : Answers) (n : Node)
    (s : InvestigationState) : Prop :=
  (n.beforePlan = true ∧ s.plan = none ∧ s.tier2Planned = false ∧ s.stepIndex = 0 ∧
    s.evidence = []) ∨
  (n.beforePlan = false ∧ ∃ p₀ added, initialPlan settings request answers = .ok p₀ ∧
    Underway request answers n p₀ added s)

variable {settings : Settings} {request : InvestigationRequest} {answers : Answers}
  {s t : InvestigationState} {n m : Node} {p₀ : InvestigationPlan}
  {added : List InvestigationStep}

theorem Underway.exists_plan (h : Underway request answers n p₀ added s) :
    ∃ plan, s.plan = some plan ∧ plan.steps = p₀.steps ++ added := by
  obtain ⟨plan, hplan, hsteps⟩ := Option.map_eq_some_iff.mp h.plan
  exact ⟨plan, hplan, hsteps⟩

theorem Underway.steps_eq (h : Underway request answers n p₀ added s) {plan : InvestigationPlan}
    (hplan : s.plan = some plan) : plan.steps = p₀.steps ++ added := by
  have hmap := h.plan
  rw [hplan, Option.map_some] at hmap
  exact Option.some.inj hmap

theorem Underway.hasStep_eq (h : Underway request answers n p₀ added s) :
    s.hasStep = decide (s.stepIndex < (p₀.steps ++ added).length) := by
  obtain ⟨plan, hplan, hsteps⟩ := h.exists_plan
  rw [InvestigationState.hasStep, hplan, Option.any_some, hsteps]

theorem Underway.currentStep_eq (h : Underway request answers n p₀ added s) :
    s.currentStep = (p₀.steps ++ added)[s.stepIndex]? := by
  obtain ⟨plan, hplan, hsteps⟩ := h.exists_plan
  rw [InvestigationState.currentStep, hplan, Option.bind_some, hsteps]

theorem Underway.exists_currentStep (h : Underway request answers .collect p₀ added s) :
    ∃ step, s.currentStep = some step := by
  rw [h.currentStep_eq, List.getElem?_eq_getElem (h.atCollect rfl)]
  exact ⟨_, rfl⟩

theorem eq_renderReport_of_next (h : nextNode n s = none) : n = .renderReport := by
  cases n with
  | renderReport => rfl
  | verifyTarget => cases h
  | plan => cases h
  | assess => cases h
  | collect =>
    rw [nextNode] at h
    split_ifs at h
  | planTier2 =>
    rw [nextNode] at h
    split_ifs at h

theorem beforePlan_of_next (h : nextNode n s = some m) (hm : m.beforePlan = true) :
    n.beforePlan = true := by
  cases n with
  | verifyTarget => rfl
  | plan => rfl
  | assess =>
    cases h
    cases hm
  | renderReport => cases h
  | collect =>
    rw [nextNode] at h
    split_ifs at h <;> cases h <;> cases hm
  | planTier2 =>
    rw [nextNode] at h
    split_ifs at h <;> cases h <;> cases hm

theorem afterPlan_of_next (hn : n.beforePlan = false) (h : nextNode n s = some m) :
    m.beforePlan = false := by
  cases hm : m.beforePlan with
  | false => rfl
  | true => exact absurd (beforePlan_of_next h hm) (by rw [hn]; exact Bool.false_ne_true)

theorem planInv_initial : PlanInv settings request answers .verifyTarget .initial :=
  Or.inl ⟨rfl, rfl, rfl, rfl, rfl⟩

theorem planInv_plan (hs : s.plan = none ∧ s.tier2Planned = false ∧ s.stepIndex = 0)
    (h : (planNode settings request answers s).2 = .ok t) :
    ∃ p₀, initialPlan settings request answers = .ok p₀ ∧
      Underway request answers .collect p₀ [] t := by
  obtain ⟨-, htier2, hindex⟩ := hs
  obtain ⟨plan, hplan, rfl⟩ := plan_ok h
  have hpos : 0 < plan.steps.length := plan.steps_length.1
  refine ⟨plan, hplan, ?_⟩
  constructor
  · show (some plan).map InvestigationPlan.steps = _
    rw [List.append_nil]
    rfl
  · show s.stepIndex ≤ _
    omega
  · exact fun _ => rfl
  · intro h
    rw [htier2] at h
    cases h
  · exact Or.inl rfl
  · intro _
    show s.stepIndex < _
    rw [hindex, List.append_nil]
    exact hpos
  · nofun
  · rintro (h | h) <;> cases h

theorem planInv_collect (hs : Underway request answers .collect p₀ added s)
    (h : (collectNode settings request answers s).2 = .ok t)
    (hnext : nextNode .collect t = some m) : Underway request answers m p₀ added t := by
  obtain ⟨step, -, rfl⟩ := collect_ok h
  have hlt := hs.atCollect rfl
  -- what does not depend on the next node
  have hcommon : Underway request answers .plan p₀ added
      { s with
        evidence := s.evidence ++ (collectAt settings request answers s.stepIndex step.tool).items
        stepIndex := s.stepIndex + 1
        limitations := s.limitations ++
          (collectAt settings request answers s.stepIndex step.tool).limitations } :=
    ⟨hs.plan, hlt, hs.first, fun h => (hs.second h).trans (Nat.le_succ _), hs.accepted, nofun, nofun,
      by rintro (h | h) <;> cases h⟩
  have hhas := hcommon.hasStep_eq
  rw [nextNode] at hnext
  split_ifs at hnext with hstep htier2 <;> rw [Option.some.injEq] at hnext <;> subst hnext
  · rw [hhas, decide_eq_true_eq] at hstep
    exact { hcommon with atCollect := fun _ => hstep, atTier2 := nofun, atEnd := by simp }
  · rw [hhas, decide_eq_true_eq] at hstep
    exact { hcommon with
      atCollect := nofun
      atTier2 := nofun
      atEnd := fun _ => le_antisymm hlt (not_lt.mp hstep) }
  · rw [hhas, decide_eq_true_eq] at hstep
    rw [Bool.not_eq_true] at htier2
    refine { hcommon with
      atCollect := nofun
      atTier2 := fun _ => ⟨htier2, ?_⟩
      atEnd := by simp }
    have hend := le_antisymm hlt (not_lt.mp hstep)
    rwa [hs.first htier2, List.append_nil] at hend

theorem planInv_tier2 (hs : Underway request answers .planTier2 p₀ added s)
    (h : (planTier2Node settings request answers s).2 = .ok t)
    (hnext : nextNode .planTier2 t = some m) : ∃ reduced,
      fitEvidenceBudget answers.reprs settings.maxEvidenceChars s.evidence = .ok reduced ∧
      Underway request answers m p₀ (tier2Steps request answers reduced) t := by
  obtain ⟨htier2, hindex⟩ := hs.atTier2 rfl
  obtain ⟨reduced, plan, limitations, hfit, rfl, hplan⟩ := planTier2_ok h
  have hnone := hs.first htier2
  have hsteps : plan.map InvestigationPlan.steps =
      some (p₀.steps ++ tier2Steps request answers reduced) := by
    obtain ⟨old, hold, holdSteps⟩ := hs.exists_plan
    rw [hplan, hold, Option.map_some, holdSteps, hnone, List.append_nil]
  refine ⟨reduced, hfit, ?_⟩
  have hcommon : Underway request answers .plan p₀ (tier2Steps request answers reduced)
      { s with plan := plan, tier2Planned := true, limitations := limitations } :=
    ⟨hsteps, by show s.stepIndex ≤ _; rw [List.length_append]; omega, nofun, fun _ => hindex.ge,
      Or.inr ⟨reduced, rfl⟩, nofun, nofun, by rintro (h | h) <;> cases h⟩
  have hhas := hcommon.hasStep_eq
  rw [nextNode] at hnext
  split_ifs at hnext with hstep <;> rw [Option.some.injEq] at hnext <;> subst hnext <;>
    rw [hhas, decide_eq_true_eq] at hstep
  · exact { hcommon with atCollect := fun _ => hstep, atTier2 := nofun, atEnd := by simp }
  · exact { hcommon with
      atCollect := nofun
      atTier2 := nofun
      atEnd := fun _ => le_antisymm hcommon.index_le (not_lt.mp hstep) }

theorem Underway.congr (h : Underway request answers n p₀ added s) (hplan : t.plan = s.plan)
    (hindex : t.stepIndex = s.stepIndex) (htier2 : t.tier2Planned = s.tier2Planned)
    (hn : n = .assess ∨ n = .renderReport) (hm : m = .assess ∨ m = .renderReport) :
    Underway request answers m p₀ added t where
  plan := hplan ▸ h.plan
  index_le := hindex ▸ h.index_le
  first := htier2 ▸ h.first
  second := htier2 ▸ hindex ▸ h.second
  accepted := h.accepted
  atCollect := by rintro rfl; simp at hm
  atTier2 := by rintro rfl; simp at hm
  atEnd _ := hindex ▸ h.atEnd hn

/-- **One visit preserves the invariant.** -/
theorem planInv_next (hs : PlanInv settings request answers n s)
    (h : ((investigationGraph settings request answers).node n s).2 = .ok t)
    (hnext : nextNode n t = some m) : PlanInv settings request answers m t := by
  rcases hs with ⟨hbefore, hplan, htier2, hindex, hevidence⟩ | ⟨hafter, p₀, added, hp₀, hs⟩
  · cases n with
    | verifyTarget =>
      obtain ⟨metadata, rfl⟩ := verifyTarget_ok h
      cases hnext
      exact Or.inl ⟨rfl, hplan, rfl, rfl, rfl⟩
    | plan =>
      obtain ⟨p₀, hp₀, hunder⟩ := planInv_plan ⟨hplan, htier2, hindex⟩ h
      cases hnext
      exact Or.inr ⟨rfl, p₀, [], hp₀, hunder⟩
    | _ => cases hbefore
  · cases n with
    | verifyTarget => cases hafter
    | plan => cases hafter
    | collect =>
      exact Or.inr ⟨afterPlan_of_next rfl hnext, p₀, added, hp₀, planInv_collect hs h hnext⟩
    | planTier2 =>
      obtain ⟨reduced, -, hunder⟩ := planInv_tier2 hs h hnext
      exact Or.inr ⟨afterPlan_of_next rfl hnext, p₀, _, hp₀, hunder⟩
    | assess =>
      obtain ⟨assessment, rfl⟩ := assess_ok h
      cases hnext
      exact Or.inr ⟨rfl, p₀, added, hp₀, hs.congr rfl rfl rfl (Or.inl rfl) (Or.inr rfl)⟩
    | renderReport => cases hnext

/-- **The invariant holds before every visit**, and a visit does what its node does there. -/
theorem planInv_visited {v : Visit Node InvestigationState Invocation}
    (hv : v ∈ (investigate settings request answers).visited) :
    PlanInv settings request answers v.node v.before ∧
      v.events = ((investigationGraph settings request answers).node v.node v.before).1 :=
  Graph.run_visited (fun _ _ _ _ hs h hnext => planInv_next hs h hnext) _ planInv_initial hv

theorem PlanInv.collect_ne_error (h : PlanInv settings request answers n s) {e : PyExc}
    (hnode : ((investigationGraph settings request answers).node n s).2 = .error e) :
    n ≠ .collect := by
  rintro rfl
  rcases h with ⟨hbefore, -⟩ | ⟨-, p₀, added, -, hunder⟩
  · cases hbefore
  · obtain ⟨step, hstep⟩ := hunder.exists_currentStep
    have herror : (collectNode settings request answers s).2 = .error e := hnode
    rw [collectNode_of_step hstep] at herror
    cases herror

/-! ## The tools of a plan -/

/-- A tool that one of the two filters lets pass. -/
def Permitted (request : InvestigationRequest) (tool : String) : Prop :=
  allowedTool (initialCustomToolNames request) request.targetPlatform tool = true ∨
    tool ∈ tier2CustomToolNames request

theorem initialPlan_sane (h : initialPlan settings request answers = .ok p₀) :
    SaneSteps (allowedTool (initialCustomToolNames request) request.targetPlatform)
      (min settings.maxSteps initialTriageMaxSteps) p₀.steps := by
  unfold initialPlan at h
  split at h
  · cases h
  · exact (sanitizePlan_spec h).2

theorem Underway.mem_added (h : Underway request answers n p₀ added s)
    (hstep : step ∈ added) : step.tool ∈ tier2CustomToolNames request := by
  rcases h.accepted with rfl | ⟨reduced, rfl⟩
  · cases hstep
  · exact mem_candidates_of_tier2 hstep

theorem PlanInv.permitted (h : PlanInv settings request answers n s) {plan : InvestigationPlan}
    (hplan : s.plan = some plan) (hstep : step ∈ plan.steps) : Permitted request step.tool := by
  rcases h with ⟨-, hnone, -⟩ | ⟨-, p₀, added, hp₀, hs⟩
  · rw [hnone] at hplan
    cases hplan
  · rw [hs.steps_eq hplan, List.mem_append] at hstep
    rcases hstep with hstep | hstep
    · exact Or.inl ((initialPlan_sane hp₀).allowed step hstep)
    · exact Or.inr (hs.mem_added hstep)

theorem PlanInv.permitted_currentStep (h : PlanInv settings request answers n s)
    (hstep : s.currentStep = some step) :
    Permitted request step.tool := by
  obtain ⟨plan, hplan, hget⟩ := Option.bind_eq_some_iff.mp hstep
  exact h.permitted hplan (List.mem_of_getElem? hget)

theorem Permitted.cases {tool : String} (h : Permitted request tool) :
    (request.targetPlatform = .windows ∧ (windowsToolPolicies.lookup tool).isSome = true) ∨
      startsWith customToolPrefix tool = true := by
  rcases h with h | h
  · rw [allowedTool, Bool.or_eq_true, decide_eq_true_eq] at h
    rcases h with h | h
    · cases hplatform : request.targetPlatform with
      | windows =>
        rw [hplatform] at h
        exact Or.inl ⟨rfl, h⟩
      | linux =>
        rw [hplatform] at h
        cases h
      | macos =>
        rw [hplatform] at h
        cases h
    · exact Or.inr (startsWith_of_mem_initial h)
  · exact Or.inr (startsWith_of_mem_tier2Names h)

theorem Permitted.ne_detail {tool : String} (h : Permitted request tool) :
    tool ≠ "windows_event_logs_detail" := by
  rintro rfl
  rcases h.cases with ⟨-, hpolicy⟩ | hcustom
  · exact absurd hpolicy (by decide)
  · exact absurd hcustom (by decide)

end AssetInventory.DeepAgent

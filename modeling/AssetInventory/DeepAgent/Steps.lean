import AssetInventory.DeepAgent.Plan

/-!
# Each step once

A run is short, and collects the steps of its plan in order, each once.  The second stage adds at most
two steps.  It skips the tools that have been collected, but it reads them off the evidence cut down to
`max_evidence_chars`: an item that was dropped there takes its tool with it, and the tool may be
collected again.

* `nodesLeft`: a bound on the nodes still to be executed, which falls with every visit.
* `Collecting`: what has been collected before a visit.
* `investigation_steps`: the whole statement; the tools differ exactly if `KeepsTools` holds.
-/

namespace AssetInventory.DeepAgent

open PyJson Workflow

/-- A visit of a run of the graph. -/
abbrev GraphVisit := Visit Node InvestigationState Invocation

def collectedStep (v : GraphVisit) : Option InvestigationStep :=
  if v.node = .collect then v.before.currentStep else none

/-- The steps that the visits collect, in order. -/
def collected (vs : List GraphVisit) : List InvestigationStep := vs.filterMap collectedStep

/-- The second stage, run on this evidence, finds no tool among the first two that it would add which
the budget has removed from the evidence. -/
def KeepsTools (settings : Settings) (request : InvestigationRequest) (answers : Answers)
    (evidence : List EvidenceItem) : Prop :=
  ∀ reduced, fitEvidenceBudget answers.reprs settings.maxEvidenceChars evidence = .ok reduced →
    ∀ step ∈ (dedupTools (freshProposals (tier2CustomToolNames request)
      (reduced.map EvidenceItem.tool) answers.tier2Items)).take maxTier2Steps,
      step.tool ∉ evidence.map EvidenceItem.tool

theorem collected_append (vs ws : List GraphVisit) :
    collected (vs ++ ws) = collected vs ++ collected ws := List.filterMap_append

variable {v : GraphVisit}

theorem collected_of_ne (h : v.node ≠ .collect) : collected [v] = [] := by
  rw [collected, List.filterMap_cons_none (by rw [collectedStep, if_neg h]), List.filterMap_nil]

theorem collected_of_step {step : InvestigationStep} (h : v.node = .collect)
    (hstep : v.before.currentStep = some step) : collected [v] = [step] := by
  rw [collected, List.filterMap_cons_some (by rw [collectedStep, if_pos h, hstep]),
    List.filterMap_nil]

variable {settings : Settings} {request : InvestigationRequest} {answers : Answers}
  {s t : InvestigationState} {n m : Node} {p₀ : InvestigationPlan}
  {added : List InvestigationStep} {vs : List GraphVisit}

/-! ## The length of a run -/

/-- The nodes that may still be executed after the next one. -/
def nodesLeft (settings : Settings) (n : Node) (s : InvestigationState) : ℕ :=
  let steps := ((s.plan.map InvestigationPlan.steps).getD []).length
  let cap := (min settings.maxSteps initialTriageMaxSteps).toNat
  match n with
  | .verifyTarget => cap + 6
  | .plan => cap + 5
  | .collect => steps - s.stepIndex + if s.tier2Planned then 1 else 4
  | .planTier2 => 4
  | .assess => 1
  | .renderReport => 0

theorem Underway.steps_getD (h : Underway request answers n p₀ added s) :
    (s.plan.map InvestigationPlan.steps).getD [] = p₀.steps ++ added := by
  rw [h.plan, Option.getD_some]

theorem initialPlan_length (hmax : 1 ≤ settings.maxSteps)
    (h : initialPlan settings request answers = .ok p₀) :
    (p₀.steps.length : ℤ) ≤ min settings.maxSteps initialTriageMaxSteps :=
  (initialPlan_sane h).length_le (le_min hmax (by decide))

/-- **The bound falls with every visit.** -/
theorem nodesLeft_next (hmax : 1 ≤ settings.maxSteps) (hs : PlanInv settings request answers n s)
    (h : ((investigationGraph settings request answers).node n s).2 = .ok t)
    (hnext : nextNode n t = some m) : nodesLeft settings m t < nodesLeft settings n s := by
  cases n with
  | verifyTarget =>
    cases hnext
    exact Nat.lt_succ_self _
  | plan =>
    rcases hs with ⟨-, hplan, htier2, hindex, -⟩ | ⟨hafter, -⟩
    · obtain ⟨p₀, hp₀, hunder⟩ := planInv_plan ⟨hplan, htier2, hindex⟩ h
      cases hnext
      have hlen := initialPlan_length hmax hp₀
      have hsteps := hunder.steps_getD
      rw [List.append_nil] at hsteps
      simp only [nodesLeft, hsteps]
      split_ifs <;> omega
    · cases hafter
  | collect =>
    rcases hs with ⟨hbefore, -⟩ | ⟨-, p₀, added, hp₀, hunder⟩
    · cases hbefore
    · have hunder' := planInv_collect hunder h hnext
      obtain ⟨step, -, rfl⟩ := collect_ok h
      have hlt := hunder.atCollect rfl
      have hsteps := hunder.steps_getD
      rw [nextNode] at hnext
      split_ifs at hnext with hstep htier2 <;> rw [Option.some.injEq] at hnext <;> subst hnext
      · simp only [nodesLeft, hsteps]
        omega
      · have htrue : s.tier2Planned = true := htier2
        simp only [nodesLeft, hsteps, htrue, if_true]
        omega
      · have hfalse : s.tier2Planned = false := by simpa using htier2
        simp only [nodesLeft, hsteps, hfalse]
        simp only [Bool.false_eq_true, if_false]
        omega
  | planTier2 =>
    rcases hs with ⟨hbefore, -⟩ | ⟨-, p₀, added, hp₀, hunder⟩
    · cases hbefore
    · obtain ⟨reduced, -, hunder'⟩ := planInv_tier2 hunder h hnext
      have hlen : (tier2Steps request answers reduced).length ≤ 2 := length_tier2Steps_le
      obtain ⟨-, hindex⟩ := hunder.atTier2 rfl
      have hsteps := hunder'.steps_getD
      obtain ⟨-, plan, limitations, -, rfl, -⟩ := planTier2_ok h
      have hplan : (plan.map InvestigationPlan.steps).getD [] =
          p₀.steps ++ tier2Steps request answers reduced := hsteps
      rw [nextNode] at hnext
      split_ifs at hnext with hstep <;> rw [Option.some.injEq] at hnext <;> subst hnext
      · simp only [nodesLeft, hplan, if_true, List.length_append, hindex]
        omega
      · exact Nat.lt_of_sub_eq_succ rfl
  | assess =>
    cases hnext
    exact Nat.zero_lt_one
  | renderReport => cases hnext

/-- **A run ends within its limit.** -/
theorem investigate_within (request : InvestigationRequest) (answers : Answers)
    (hmax : 1 ≤ settings.maxSteps) :
    (∀ t, (investigate settings request answers).outcome ≠ .outOfSteps t) ∧
      ((investigate settings request answers).visited.length : ℤ) ≤ settings.maxSteps + 7 := by
  have hcap : nodesLeft settings .verifyTarget .initial =
      (min settings.maxSteps initialTriageMaxSteps).toNat + 6 := rfl
  have hle : ((min settings.maxSteps initialTriageMaxSteps).toNat : ℤ) ≤ settings.maxSteps := by
    rw [Int.toNat_of_nonneg (le_min (by omega) (by decide))]
    exact min_le_left _ _
  have hlimit : nodesLeft settings .verifyTarget .initial < recursionLimit settings := by
    rw [hcap, recursionLimit]
    omega
  obtain ⟨hout, hlen⟩ := Graph.run_within
    (g := investigationGraph settings request answers)
    (I := PlanInv settings request answers) (r := nodesLeft settings)
    (fun _ _ _ _ hs h hnext => ⟨planInv_next hs h hnext, nodesLeft_next hmax hs h hnext⟩)
    planInv_initial hlimit
  refine ⟨hout, ?_⟩
  rw [hcap] at hlen
  show (((investigationGraph settings request answers).run (recursionLimit settings) .verifyTarget
    .initial).visited.length : ℤ) ≤ settings.maxSteps + 7
  omega

/-! ## What has been collected -/

/-- **The items of a collected step**: the first has its tool, the others are event-log details. -/
theorem collectAt_items (settings : Settings) (request : InvestigationRequest) (answers : Answers)
    (index : ℕ) (tool : String) :
    ∃ first rest, (collectAt settings request answers index tool).items = first :: rest ∧
      first.tool = tool ∧ ∀ item ∈ rest, item.tool = "windows_event_logs_detail" := by
  have hlog : ∀ (id tool : String) at' result, (logItem id tool at' result).tool = tool := by
    intro id tool at' result
    cases result <;> rfl
  by_cases htool : tool = "windows_event_logs"
  · subst htool
    rw [collectAt, if_pos rfl]
    refine ⟨_, _, rfl, hlog _ _ _ _, fun item hitem => ?_⟩
    obtain ⟨x, -, rfl⟩ := List.mem_map.mp hitem
    exact hlog _ _ _ _
  · rw [collectAt, if_neg htool]
    refine ⟨_, [], rfl, ?_, fun _ h => absurd h List.not_mem_nil⟩
    split
    · rfl
    · unfold payloadItem
      split_ifs
      · split <;> rfl
      · rfl

theorem custom_mem_collectAt {tool custom : String} {index : ℕ}
    (hcustom : startsWith customToolPrefix custom = true) :
    custom ∈ (collectAt settings request answers index tool).items.map EvidenceItem.tool ↔
      custom = tool := by
  obtain ⟨first, rest, hitems, hfirst, hrest⟩ :=
    collectAt_items settings request answers index tool
  rw [hitems, List.map_cons, hfirst, List.mem_cons]
  refine or_iff_left fun hmem => ?_
  obtain ⟨item, hitem, htool⟩ := List.mem_map.mp hmem
  rw [← htool, hrest item hitem] at hcustom
  revert hcustom
  decide

/-- **Before a visit**: what the visits so far, `vs`, have collected. -/
structure Collecting (settings : Settings) (request : InvestigationRequest) (answers : Answers)
    (n : Node) (s : InvestigationState) (vs : List GraphVisit) : Prop where
  inv : PlanInv settings request answers n s
  before : n.beforePlan = true → ∀ v ∈ vs, v.node.beforePlan = true
  /-- The steps up to the index have been collected. -/
  steps : ∀ plan, s.plan = some plan → collected vs = plan.steps.take s.stepIndex
  /-- The evidence has their tools. -/
  tools : ∀ tool, startsWith customToolPrefix tool = true →
    (tool ∈ s.evidence.map EvidenceItem.tool ↔
      tool ∈ (collected vs).map InvestigationStep.tool)
  /-- The second stage has not been visited before it is done. -/
  first : s.tier2Planned = false → ∀ v ∈ vs, v.node ≠ .planTier2
  /-- The tools of the plan differ if the second stage has seen all it needs. -/
  nodup : ∀ plan, s.plan = some plan → ((plan.steps.map InvestigationStep.tool).Nodup ↔
    ∀ v ∈ vs, v.node = .planTier2 → KeepsTools settings request answers v.before.evidence)

theorem collected_of_beforePlan (h : ∀ v ∈ vs, v.node.beforePlan = true) : collected vs = [] := by
  rw [collected, List.filterMap_eq_nil_iff]
  intro v hv
  rw [collectedStep, if_neg]
  intro hcollect
  have hbefore := h v hv
  rw [hcollect] at hbefore
  cases hbefore

theorem collecting_initial : Collecting settings request answers .verifyTarget .initial [] where
  inv := planInv_initial
  before _ _ h := absurd h List.not_mem_nil
  steps := nofun
  tools _ _ := Iff.rfl
  first _ _ h := absurd h List.not_mem_nil
  nodup := nofun

/-- A property of all visits so far and one that is not of the second stage. -/
theorem forall_tier2_snoc {P : GraphVisit → Prop} (h : v.node ≠ .planTier2) :
    (∀ w ∈ vs ++ [v], w.node = .planTier2 → P w) ↔ ∀ w ∈ vs, w.node = .planTier2 → P w := by
  constructor
  · exact fun hall w hw => hall w (List.mem_append_left _ hw)
  · intro hall w hw hnode
    rcases List.mem_append.mp hw with hw | hw
    · exact hall w hw hnode
    · rw [List.mem_singleton.mp hw] at hnode
      exact absurd hnode h

variable {es : List Invocation}

theorem Collecting.other (hs : Collecting settings request answers n s vs)
    (hn : n ≠ .collect) (hn' : n ≠ .planTier2) (hinv : PlanInv settings request answers m t)
    (hm : m.beforePlan = true → n.beforePlan = true) (hplan : t.plan = s.plan)
    (hindex : t.stepIndex = s.stepIndex) (hevidence : t.evidence = s.evidence)
    (htier2 : t.tier2Planned = s.tier2Planned) :
    Collecting settings request answers m t (vs ++ [⟨n, s, es⟩]) := by
  have hcollected : collected (vs ++ [⟨n, s, es⟩]) = collected vs := by
    rw [collected_append, collected_of_ne hn, List.append_nil]
  refine ⟨hinv, fun h v hv => ?_, ?_, ?_, fun h v hv => ?_, ?_⟩
  · rcases List.mem_append.mp hv with hv | hv
    · exact hs.before (hm h) v hv
    · rw [List.mem_singleton.mp hv]
      exact hm h
  · rw [hcollected, hplan, hindex]
    exact hs.steps
  · rw [hcollected, hevidence]
    exact hs.tools
  · rw [htier2] at h
    rcases List.mem_append.mp hv with hv | hv
    · exact hs.first h v hv
    · rw [List.mem_singleton.mp hv]
      exact hn'
  · rw [hplan]
    exact fun plan hp => (hs.nodup plan hp).trans (forall_tier2_snoc hn').symm

theorem Collecting.plan (hs : Collecting settings request answers .plan s vs)
    (h : (planNode settings request answers s).2 = .ok t) :
    Collecting settings request answers .collect t (vs ++ [⟨.plan, s, es⟩]) := by
  rcases hs.inv with ⟨-, hplan, htier2, hindex, hevidence⟩ | ⟨hafter, -⟩
  · obtain ⟨p₀, hp₀, hunder⟩ := planInv_plan ⟨hplan, htier2, hindex⟩ h
    obtain ⟨p, hp, rfl⟩ := plan_ok h
    have hnone : collected (vs ++ [(⟨.plan, s, es⟩ : GraphVisit)]) = [] := by
      rw [collected_append, collected_of_beforePlan (hs.before rfl), collected_of_ne (by rintro ⟨⟩)]
      rfl
    have hfirst : ∀ v ∈ vs ++ [(⟨.plan, s, es⟩ : GraphVisit)], v.node ≠ .planTier2 := by
      intro v hv
      rcases List.mem_append.mp hv with hv | hv
      · exact hs.first htier2 v hv
      · rw [List.mem_singleton.mp hv]
        nofun
    refine ⟨Or.inr ⟨rfl, p₀, [], hp₀, hunder⟩, nofun, ?_, ?_, fun _ => hfirst, ?_⟩
    · rintro plan -
      show collected _ = plan.steps.take s.stepIndex
      rw [hnone, hindex, List.take_zero]
    · intro tool _
      show tool ∈ s.evidence.map EvidenceItem.tool ↔ _
      rw [hnone, hevidence]
      exact Iff.rfl
    · intro plan hplan'
      cases hplan'
      exact iff_of_true (initialPlan_sane hp).nodup fun v hv hnode => absurd hnode (hfirst v hv)
  · cases hafter

theorem Collecting.collect (hs : Collecting settings request answers .collect s vs)
    (h : (collectNode settings request answers s).2 = .ok t)
    (hnext : nextNode .collect t = some m) :
    Collecting settings request answers m t (vs ++ [⟨.collect, s, es⟩]) := by
  have hinv : PlanInv settings request answers m t := planInv_next hs.inv h hnext
  obtain ⟨step, hstep, rfl⟩ := collect_ok h
  have hcollected : collected (vs ++ [(⟨.collect, s, es⟩ : GraphVisit)]) =
      collected vs ++ [step] := by
    rw [collected_append, collected_of_step rfl hstep]
  have hm : m.beforePlan = false := afterPlan_of_next rfl hnext
  refine ⟨hinv, fun h => absurd (hm.symm.trans h) Bool.false_ne_true, ?_, ?_, fun h v hv => ?_, ?_⟩
  · intro plan hplan
    have hget : plan.steps[s.stepIndex]? = some step := by
      rw [InvestigationState.currentStep, show s.plan = some plan from hplan] at hstep
      exact hstep
    show _ = plan.steps.take (s.stepIndex + 1)
    rw [hcollected, hs.steps plan hplan, List.take_add_one, hget]
    rfl
  · intro tool htool
    show tool ∈ (s.evidence ++ _).map EvidenceItem.tool ↔ _
    rw [List.map_append, List.mem_append, hs.tools tool htool, custom_mem_collectAt htool,
      hcollected, List.map_append, List.mem_append, List.map_singleton, List.mem_singleton]
  · rcases List.mem_append.mp hv with hv | hv
    · exact hs.first h v hv
    · rw [List.mem_singleton.mp hv]
      rintro ⟨⟩
  · exact fun plan hp => (hs.nodup plan hp).trans (forall_tier2_snoc (by rintro ⟨⟩)).symm

/-- **The tools stay different** exactly if the second stage has seen those it adds again. -/
theorem nodup_iff_keepsTools (hs : Collecting settings request answers .planTier2 s vs)
    (hunder : Underway request answers .planTier2 p₀ added s)
    (hp₀ : initialPlan settings request answers = .ok p₀) {reduced : List EvidenceItem}
    (hfit : fitEvidenceBudget answers.reprs settings.maxEvidenceChars s.evidence = .ok reduced) :
    ((p₀.steps ++ tier2Steps request answers reduced).map InvestigationStep.tool).Nodup ↔
      KeepsTools settings request answers s.evidence := by
  obtain ⟨htier2, hindex⟩ := hunder.atTier2 rfl
  have hall : collected vs = p₀.steps := by
    obtain ⟨plan, hplan, hsteps⟩ := hunder.exists_plan
    rw [hs.steps plan hplan, hsteps, hunder.first htier2, List.append_nil, hindex, List.take_length]
  -- a candidate has been collected exactly if the evidence has its tool
  have hseen : ∀ step ∈ tier2Steps request answers reduced,
      (step.tool ∈ s.evidence.map EvidenceItem.tool ↔
        step.tool ∈ p₀.steps.map InvestigationStep.tool) := by
    intro step hstep
    rw [hs.tools step.tool (startsWith_of_mem_tier2Names (mem_candidates_of_tier2 hstep)), hall]
  rw [List.map_append, List.nodup_append]
  constructor
  · rintro ⟨-, -, hdisjoint⟩ reduced' hfit' step hstep hmem
    rw [hfit, Except.ok.injEq] at hfit'
    subst hfit'
    rw [← tier2Steps_eq] at hstep
    exact hdisjoint _ ((hseen step hstep).mp hmem) _ (List.mem_map.mpr ⟨step, hstep, rfl⟩) rfl
  · intro hkeeps
    refine ⟨(initialPlan_sane hp₀).nodup, nodup_tier2Steps, fun a ha b hb hab => ?_⟩
    obtain ⟨step, hstep, rfl⟩ := List.mem_map.mp hb
    subst hab
    have hnot := hkeeps reduced hfit step (tier2Steps_eq request answers reduced ▸ hstep)
    exact hnot ((hseen step hstep).mpr ha)

theorem Collecting.tier2 (hs : Collecting settings request answers .planTier2 s vs)
    (h : (planTier2Node settings request answers s).2 = .ok t)
    (hnext : nextNode .planTier2 t = some m) :
    Collecting settings request answers m t (vs ++ [⟨.planTier2, s, es⟩]) := by
  have hinv : PlanInv settings request answers m t := planInv_next hs.inv h hnext
  rcases hs.inv with ⟨hbefore, -⟩ | ⟨-, p₀, added, hp₀, hunder⟩
  · cases hbefore
  · obtain ⟨reduced, hfit, hunder'⟩ := planInv_tier2 hunder h hnext
    obtain ⟨htier2, hindex⟩ := hunder.atTier2 rfl
    obtain ⟨-, plan', limitations, -, rfl, -⟩ := planTier2_ok h
    have hcollected : collected (vs ++ [(⟨.planTier2, s, es⟩ : GraphVisit)]) = collected vs := by
      rw [collected_append, collected_of_ne (by rintro ⟨⟩), List.append_nil]
    have hall : collected vs = p₀.steps := by
      obtain ⟨plan, hplan, hsteps⟩ := hunder.exists_plan
      rw [hs.steps plan hplan, hsteps, hunder.first htier2, List.append_nil, hindex,
        List.take_length]
    have hm : m.beforePlan = false := afterPlan_of_next rfl hnext
    refine ⟨hinv, fun h => absurd (hm.symm.trans h) Bool.false_ne_true, ?_, ?_, nofun, ?_⟩
    · intro plan hplan
      show _ = plan.steps.take s.stepIndex
      rw [hcollected, hall, hunder'.steps_eq hplan, hindex, List.take_left]
    · rw [hcollected]
      exact hs.tools
    · intro plan hplan
      rw [hunder'.steps_eq hplan, nodup_iff_keepsTools hs hunder hp₀ hfit]
      constructor
      · intro hkeeps v hv hnode
        rcases List.mem_append.mp hv with hv | hv
        · exact absurd hnode (hs.first htier2 v hv)
        · rw [List.mem_singleton.mp hv]
          exact hkeeps
      · intro hkeeps
        exact hkeeps ⟨.planTier2, s, es⟩ (List.mem_append_right _ (List.mem_singleton.mpr rfl)) rfl

/-- **One visit.** -/
theorem collecting_next (hs : Collecting settings request answers n s vs)
    (h : ((investigationGraph settings request answers).node n s).2 = .ok t)
    (hnext : nextNode n t = some m) :
    Collecting settings request answers m t (vs ++ [⟨n, s, es⟩]) := by
  have hinv : PlanInv settings request answers m t := planInv_next hs.inv h hnext
  cases n with
  | verifyTarget =>
    rcases hs.inv with ⟨-, -, htier2, hindex, hevidence⟩ | ⟨hafter, -⟩
    · obtain ⟨metadata, rfl⟩ := verifyTarget_ok h
      refine hs.other (by rintro ⟨⟩) (by rintro ⟨⟩) hinv (fun _ => rfl) rfl ?_ ?_ ?_
      · exact hindex.symm
      · exact hevidence.symm
      · exact htier2.symm
    · cases hafter
  | plan =>
    cases hnext
    exact hs.plan h
  | collect => exact hs.collect h hnext
  | planTier2 => exact hs.tier2 h hnext
  | assess =>
    obtain ⟨assessment, rfl⟩ := assess_ok h
    cases hnext
    exact hs.other (by rintro ⟨⟩) (by rintro ⟨⟩) hinv (by rintro ⟨⟩) rfl rfl rfl rfl
  | renderReport => cases hnext

/-! ## The end of a run -/

variable {plan : InvestigationPlan}

theorem exists_extendPlan (request : InvestigationRequest) (hplan : s.plan = some plan)
    (hlen : plan.steps.length ≤ 10) (reduced : List EvidenceItem)
    (items : List (Option InvestigationStep)) :
    ∃ t, extendPlan request reduced items s = .ok t := by
  have haccepted : (acceptTier2 (tier2CustomToolNames request)
      (reduced.map EvidenceItem.tool) [] items).length ≤ 2 := by
    rw [acceptTier2_eq _ _ [] _ Nat.two_pos]
    exact List.length_take_le _ _
  unfold extendPlan
  dsimp only
  split_ifs
  · exact ⟨_, rfl⟩
  · rw [hplan]
    obtain ⟨expanded, hexpanded⟩ := plan.exists_validate (plan.steps ++
      acceptTier2 (tier2CustomToolNames request) (reduced.map EvidenceItem.tool) [] items)
      ⟨by rw [List.length_append]; have := plan.steps_length.1; omega,
        by rw [List.length_append]; omega⟩
    simp only [hexpanded]
    exact ⟨_, rfl⟩

theorem keepsTools_of_error (hplan : s.plan = some plan) (hlen : plan.steps.length ≤ 10) {e : PyExc}
    (h : (planTier2Node settings request answers s).2 = .error e) :
    KeepsTools settings request answers s.evidence := by
  intro reduced hfit step hstep
  unfold planTier2Node at h
  simp only [hfit] at h
  split_ifs at h with hcandidates
  -- there are candidates and an answer, and going through it raises
  have hnone : answers.tier2Items = [] := by
    unfold Answers.tier2Items
    cases htier2 : answers.tier2 with
    | none => rfl
    | some result =>
      cases result with
      | error e => rfl
      | ok answer =>
        simp only [htier2] at h
        cases hproposed : answer.proposed with
        | error e => simp only [hproposed]; rfl
        | ok items =>
          simp only [hproposed] at h
          obtain ⟨t, ht⟩ := exists_extendPlan request hplan hlen reduced items
          rw [ht] at h
          cases h
  rw [hnone] at hstep
  exact absurd hstep List.not_mem_nil

/-- **The steps of a run**: all those of its plan, which extends the initial one by at most two; their
tools differ exactly if the second stage kept the tools it needed. -/
structure Done (settings : Settings) (request : InvestigationRequest) (answers : Answers)
    (plan : InvestigationPlan) (vs : List GraphVisit) : Prop where
  steps : collected vs = plan.steps
  extends_ : ∃ p₀ added, initialPlan settings request answers = .ok p₀ ∧
    plan.steps = p₀.steps ++ added ∧ added.length ≤ 2
  nodup : ((collected vs).map InvestigationStep.tool).Nodup ↔
    ∀ v ∈ vs, v.node = .planTier2 → KeepsTools settings request answers v.before.evidence

theorem Underway.length_added (h : Underway request answers n p₀ added s) : added.length ≤ 2 := by
  rcases h.accepted with rfl | ⟨reduced, rfl⟩
  · exact Nat.zero_le _
  · exact length_tier2Steps_le

theorem Collecting.done (hs : Collecting settings request answers n s vs) (hplan : s.plan = some plan)
    (hend : s.stepIndex = plan.steps.length) : Done settings request answers plan vs := by
  have hsteps : collected vs = plan.steps := by
    rw [hs.steps plan hplan, hend, List.take_length]
  rcases hs.inv with ⟨-, hnone, -⟩ | ⟨-, p₀, added, hp₀, hunder⟩
  · rw [hnone] at hplan
    cases hplan
  · exact ⟨hsteps, ⟨p₀, added, hp₀, hunder.steps_eq hplan, hunder.length_added⟩,
      hsteps ▸ hs.nodup plan hplan⟩

theorem Done.snoc (h : Done settings request answers plan vs) (hn : v.node ≠ .collect)
    (hkeeps : v.node = .planTier2 → KeepsTools settings request answers v.before.evidence) :
    Done settings request answers plan (vs ++ [v]) := by
  have hcollected : collected (vs ++ [v]) = collected vs := by
    rw [collected_append, collected_of_ne hn, List.append_nil]
  refine ⟨hcollected ▸ h.steps, h.extends_, ?_⟩
  rw [hcollected, h.nodup]
  constructor
  · intro hall w hw hnode
    rcases List.mem_append.mp hw with hw | hw
    · exact hall w hw hnode
    · rw [List.mem_singleton.mp hw] at hnode ⊢
      exact hkeeps hnode
  · exact fun hall w hw => hall w (List.mem_append_left _ hw)

theorem Collecting.raised (hmax : 1 ≤ settings.maxSteps)
    (hs : Collecting settings request answers n s vs) {e : PyExc}
    (h : ((investigationGraph settings request answers).node n s).2 = .error e)
    (hplan : s.plan = some plan) :
    Done settings request answers plan (vs ++ [⟨n, s, es⟩]) := by
  rcases hs.inv with ⟨-, hnone, -⟩ | ⟨hafter, p₀, added, hp₀, hunder⟩
  · rw [hnone] at hplan
    cases hplan
  · have hsteps := hunder.steps_eq hplan
    cases n with
    | verifyTarget => cases hafter
    | plan => cases hafter
    | collect => exact absurd rfl (hs.inv.collect_ne_error h)
    | planTier2 =>
      obtain ⟨htier2, hindex⟩ := hunder.atTier2 rfl
      rw [hunder.first htier2, List.append_nil] at hsteps
      have hlen := initialPlan_length hmax hp₀
      have hcap : min settings.maxSteps initialTriageMaxSteps ≤ 3 := min_le_right _ _
      refine (hs.done hplan (hsteps ▸ hindex)).snoc (by rintro ⟨⟩) fun _ => ?_
      exact keepsTools_of_error hplan (by rw [hsteps]; omega) h
    | assess =>
      exact (hs.done hplan (hsteps ▸ hunder.atEnd (Or.inl rfl))).snoc (by rintro ⟨⟩)
        (by rintro ⟨⟩)
    | renderReport =>
      exact (hs.done hplan (hsteps ▸ hunder.atEnd (Or.inr rfl))).snoc (by rintro ⟨⟩)
        (by rintro ⟨⟩)

theorem Collecting.finished (hs : Collecting settings request answers n s vs)
    (h : ((investigationGraph settings request answers).node n s).2 = .ok t)
    (hnext : nextNode n t = none) (hplan : t.plan = some plan) :
    Done settings request answers plan (vs ++ [⟨n, s, es⟩]) := by
  cases eq_renderReport_of_next hnext
  obtain ⟨report, rfl⟩ := renderReport_ok h
  rcases hs.inv with ⟨hbefore, -⟩ | ⟨-, p₀, added, hp₀, hunder⟩
  · cases hbefore
  · exact (hs.done hplan (hunder.steps_eq hplan ▸ hunder.atEnd (Or.inr rfl))).snoc
      (by rintro ⟨⟩) (by rintro ⟨⟩)

/-- The claim of a run: it ends within its limit, and does each planned step once. -/
structure EachStepOnce (settings : Settings) (request : InvestigationRequest) (answers : Answers) :
    Prop where
  within : ∀ t, (investigate settings request answers).outcome ≠ .outOfSteps t
  visits : ((investigate settings request answers).visited.length : ℤ) ≤ settings.maxSteps + 8
  /-- The steps of the final plan are collected in order, each once. -/
  steps : ∀ plan, (investigate settings request answers).outcome.state.plan = some plan →
    collected (investigate settings request answers).visited = plan.steps
  /-- The final plan extends the initial one by at most two steps. -/
  extends_ : ∀ plan, (investigate settings request answers).outcome.state.plan = some plan →
    ∃ p₀ added, initialPlan settings request answers = .ok p₀ ∧
      plan.steps = p₀.steps ++ added ∧ added.length ≤ 2
  /-- No tool is collected in two steps. -/
  tools : ((collected (investigate settings request answers).visited).map
    InvestigationStep.tool).Nodup

/-- **What every run collects**: nothing if it made no plan, else the steps of its plan. -/
theorem investigate_done (request : InvestigationRequest) (answers : Answers)
    (hmax : 1 ≤ settings.maxSteps) :
    ((investigate settings request answers).outcome.state.plan = none →
      ∀ v ∈ (investigate settings request answers).visited, v.node.beforePlan = true) ∧
    ∀ plan, (investigate settings request answers).outcome.state.plan = some plan →
      Done settings request answers plan (investigate settings request answers).visited := by
  have hrun := Graph.run_invariant (g := investigationGraph settings request answers)
    (I := Collecting settings request answers)
    (F := fun outcome vs => (∀ t, outcome ≠ .outOfSteps t) →
      (outcome.state.plan = none → ∀ v ∈ vs, v.node.beforePlan = true) ∧
      ∀ plan, outcome.state.plan = some plan → Done settings request answers plan vs)
    (fun _ _ _ _ _ hs h hnext => collecting_next hs h hnext)
    (fun n s vs t hs h hnext _ =>
      ⟨fun hnone => ?_, fun _ hplan => hs.finished h hnext hplan⟩)
    (fun n s vs e hs h _ => ⟨fun hnone => ?_, fun _ hplan => hs.raised hmax h hplan⟩)
    (fun _ s _ _ hout => absurd rfl (hout s)) (recursionLimit settings) collecting_initial
  · exact hrun (investigate_within request answers hmax).1
  · -- only `render_report` ends a run, and there is a plan then
    cases eq_renderReport_of_next hnext
    rcases hs.inv with ⟨hbefore, -⟩ | ⟨-, p₀, added, -, hunder⟩
    · cases hbefore
    · obtain ⟨report, rfl⟩ := renderReport_ok h
      obtain ⟨plan, hplan, -⟩ := hunder.exists_plan
      rw [show s.plan = none from hnone] at hplan
      cases hplan
  · rcases hs.inv with ⟨hbefore, -⟩ | ⟨-, p₀, added, -, hunder⟩
    · intro v hv
      rcases List.mem_append.mp hv with hv | hv
      · exact hs.before hbefore v hv
      · rw [List.mem_singleton.mp hv]
        exact hbefore
    · obtain ⟨plan, hplan, -⟩ := hunder.exists_plan
      rw [show s.plan = none from hnone] at hplan
      cases hplan

/-- **Each step once**, exactly if at the second stage no tool that it would add has been removed from
the evidence by the budget. -/
theorem eachStepOnce_iff (hmax : 1 ≤ settings.maxSteps) : EachStepOnce settings request answers ↔
      ∀ v ∈ (investigate settings request answers).visited, v.node = .planTier2 →
        KeepsTools settings request answers v.before.evidence := by
  obtain ⟨hout, hlen⟩ := investigate_within request answers hmax
  obtain ⟨hnone, hsome⟩ := investigate_done request answers hmax
  have htools : ((collected (investigate settings request answers).visited).map
      InvestigationStep.tool).Nodup ↔
        ∀ v ∈ (investigate settings request answers).visited, v.node = .planTier2 →
          KeepsTools settings request answers v.before.evidence := by
    cases hplan : (investigate settings request answers).outcome.state.plan with
    | none =>
      have hbefore := hnone hplan
      rw [collected_of_beforePlan hbefore]
      refine iff_of_true List.nodup_nil fun v hv hnode => ?_
      have hv' := hbefore v hv
      rw [hnode] at hv'
      cases hv'
    | some plan => exact (hsome plan hplan).nodup
  constructor
  · exact fun h => htools.mp h.tools
  · intro hkeeps
    exact ⟨hout, by omega, fun plan hplan => (hsome plan hplan).steps,
      fun plan hplan => (hsome plan hplan).extends_, htools.mpr hkeeps⟩

/-! ## Two runs

An investigation of a Windows client.  The request lists the triage artifact of the fixed list, with
tier 2, so that it is a candidate of both stages. -/

/-- Three steps, and the given number of characters of evidence. -/
def exampleSettings (maxEvidenceChars : ℤ) : Settings := ⟨"root", 3, maxEvidenceChars, 30000⟩

def triageRef (tier : ArtifactTier) : CustomArtifactRef where
  name := "Custom.DFIR.Windows.Triage"
  description := ""
  tier := tier
  supportedPlatforms := [.windows]
  name_length := by decide
  name_custom := by decide
  description_length := by decide
  platforms_ne := by decide

theorem exampleRange_ordered : (0 : PyTime.Time) < PyTime.seconds 7200 := by decide

theorem exampleRange_admitted : (PyTime.seconds 7200 - 0) / PyTime.seconds 86400 ≤ 31 := by
  decide

/-! The texts of the example are of admitted lengths. -/

theorem length_exampleClient : 3 ≤ "C.1".length ∧ "C.1".length ≤ 64 := by decide

theorem length_exampleHost : 1 ≤ "pc".length ∧ "pc".length ≤ 255 := by decide

theorem length_exampleActivity : 1 ≤ "x".length ∧ "x".length ≤ 4000 := by decide

theorem length_noOrg : ∀ org ∈ (none : Option String), org.length ≤ 128 := by simp

/-- A request for two hours of a client. -/
def exampleRequest (refs : List CustomArtifactRef) (h : refs.length ≤ 20) :
    InvestigationRequest where
  clientId := "C.1"
  hostname := "pc"
  targetPlatform := .windows
  timeRange := ⟨0, PyTime.seconds 7200, exampleRange_ordered, exampleRange_admitted⟩
  suspiciousActivity := "x"
  orgId := none
  customArtifacts := refs
  client_length := length_exampleClient
  hostname_length := length_exampleHost
  activity_length := length_exampleActivity
  org_length := length_noOrg
  artifacts_length := h

theorem length_triageRef : [triageRef .two].length ≤ 20 := by decide

theorem length_exampleRationale : 1 ≤ "r".length ∧ "r".length ≤ 500 := by decide

theorem length_exampleHypothesis : 1 ≤ "h".length ∧ "h".length ≤ 1000 := by decide

def exampleStep (tool : String) : InvestigationStep := ⟨tool, "r", length_exampleRationale⟩

/-- A plan of one step. -/
def examplePlan (tool : String) : InvestigationPlan :=
  ⟨"h", [exampleStep tool], length_exampleHypothesis, le_refl 1, by simp⟩

/-- The envelope of a result without data. -/
def emptyEnvelope : McpAnswer := .payload [("ok", .bool true), ("data", .null)]

/-- A server with the tools of the catalogue, which returns no data. -/
def exampleAnswers (plan : InvestigationPlan) (tier2 : List (Option InvestigationStep)) :
    Answers where
  tools := .ok (("list_clients" :: helperNames).map (⟨·, []⟩))
  verify := .payload
    [("ok", .bool true), ("data", .arr [.obj [("client_id", .str "C.1")]])]
  plan := .ok plan
  collect _ := emptyEnvelope
  triage _ := emptyEnvelope
  detail _ _ := emptyEnvelope
  expansion _ := none
  tier2 := some (.ok (.items tier2))
  assess := .ok ⟨.info, .low, "s", "c", [], [], []⟩
  now _ _ := 0
  reprs := ⟨fun _ => "0.5", fun s => s⟩

/-- The triage tool, in both stages. -/
def triageTwice : Answers :=
  exampleAnswers (examplePlan "custom:Custom.DFIR.Windows.Triage")
    [some (exampleStep "custom:Custom.DFIR.Windows.Triage")]

/-- Without a proposal each step is done once, however little evidence is kept. -/
theorem eachStepOnce_unanswered :
    EachStepOnce (exampleSettings 100) (exampleRequest [triageRef .two] (by decide))
      { triageTwice with tier2 := none } :=
  (eachStepOnce_iff (by decide)).mpr fun _ _ _ _ _ _ hstep => absurd hstep List.not_mem_nil

/-- **A tool collected twice**: within 100 characters no item of evidence fits, and the second stage
proposes the tool that has just been collected. -/
theorem collected_twice :
    ¬ EachStepOnce (exampleSettings 100) (exampleRequest [triageRef .two] (by decide))
      triageTwice := by
  intro h
  have hrepeat : ((collected (investigate (exampleSettings 100)
      (exampleRequest [triageRef .two] (by decide)) triageTwice).visited).map
        InvestigationStep.tool) =
      ["custom:Custom.DFIR.Windows.Triage", "custom:Custom.DFIR.Windows.Triage"] := by
    decide +kernel
  have hnodup := h.tools
  rw [hrepeat] at hnodup
  revert hnodup
  decide

end AssetInventory.DeepAgent

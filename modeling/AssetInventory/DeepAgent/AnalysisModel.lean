import AssetInventory.DeepAgent.Catalog

/-!
# What the run makes of the model's answers

The plan and the assessment come from a language model and are cut down to what the catalogue and the
evidence allow.

* `sanitizePlan`: the allowed steps of a plan, without repetitions; if none is left, a fixed list on
  Windows, else one artifact of the request.  `sanitizePlan_spec` says what a returned plan is.
* `validateAssessmentEvidence`: the findings and indicators that cite evidence.
-/

namespace AssetInventory.DeepAgent

open PyJson

def initialTriageMaxSteps : ℤ := 3

/-- The tools that a plan may use. -/
def allowedTool (customNames : List String) (platform : Platform) (tool : String) : Bool :=
  ((toolPoliciesFor platform).lookup tool).isSome || decide (tool ∈ customNames)

/-- The loop of `sanitize_plan`; the tools in `seen` are those of `steps`. -/
def keepAllowed (maxSteps : ℤ) (allowed : String → Bool) :
    List InvestigationStep → List InvestigationStep → List InvestigationStep
  | steps, [] => steps
  | steps, step :: rest =>
    if allowed step.tool = false ∨ step.tool ∈ steps.map InvestigationStep.tool then
      keepAllowed maxSteps allowed steps rest
    else if maxSteps ≤ (steps ++ [step]).length then steps ++ [step]
    else keepAllowed maxSteps allowed (steps ++ [step]) rest

/-- The step for a bridge helper, with the description of its policy. -/
def policyStep (platform : Platform) (tool : String) : Except PyExc InvestigationStep :=
  match (toolPoliciesFor platform).lookup tool with
  | none => .error ⟨"KeyError", "'" ++ tool ++ "'"⟩
  | some policy => InvestigationStep.validate tool policy.description

/-- The steps for a list of helpers. -/
def policySteps (platform : Platform) : List String → Except PyExc (List InvestigationStep)
  | [] => .ok []
  | tool :: tools =>
    match policyStep platform tool with
    | .error e => .error e
    | .ok step => (policySteps platform tools).map (step :: ·)

/-- `min(names)`; `none` for no names. -/
def minName : List String → Option String
  | [] => none
  | name :: names => some (names.foldl (fun a b => if b < a then b else a) name)

/-- The fixed steps on Windows, if no step is left. -/
def orBaseline (maxSteps : ℤ) (platform : Platform) (steps : List InvestigationStep) :
    Except PyExc (List InvestigationStep) :=
  if steps = [] ∧ platform = .windows then policySteps platform (takeTo maxSteps baselineTools)
  else .ok steps

/-- One artifact of the request, if no step is left. -/
def orCustom (customNames : List String) (steps : List InvestigationStep) :
    Except PyExc (List InvestigationStep) :=
  match steps, minName customNames with
  | [], some tool =>
    (InvestigationStep.validate tool "Artifact phù hợp nền tảng do backend cấp").map ([·])
  | steps, _ => .ok steps

def sanitizePlan (plan : InvestigationPlan) (maxSteps : ℤ) (customNames : List String)
    (platform : Platform) : Except PyExc InvestigationPlan :=
  match orBaseline maxSteps platform
      (keepAllowed maxSteps (allowedTool customNames platform) [] plan.steps) with
  | .error e => .error e
  | .ok steps =>
    match orCustom customNames steps with
    | .error e => .error e
    | .ok steps => InvestigationPlan.validate plan.hypothesis steps

def validateAssessmentEvidence (assessment : Assessment) (evidence : List EvidenceItem) :
    Assessment :=
  let validIds := evidence.map EvidenceItem.evidenceId
  { assessment with
    findings := assessment.findings.filter fun finding =>
      !finding.evidenceRefs.isEmpty && finding.evidenceRefs.all fun ref => decide (ref ∈ validIds)
    iocs := assessment.iocs.filter fun ioc => decide (ioc.evidenceRef ∈ validIds) }

/-! ## What a sanitized plan is -/

/-- Steps whose tools are allowed and differ from each other, and which are at most `n` if `n` is
positive. -/
structure SaneSteps (allowed : String → Bool) (n : ℤ) (steps : List InvestigationStep) : Prop where
  allowed : ∀ step ∈ steps, allowed step.tool = true
  nodup : (steps.map InvestigationStep.tool).Nodup
  length_le : 1 ≤ n → (steps.length : ℤ) ≤ n

section Sanitize

variable {maxSteps : ℤ} {allowed : String → Bool} {steps steps' : List InvestigationStep}

theorem SaneSteps.snoc {step : InvestigationStep}
    (h : SaneSteps allowed maxSteps steps) (hallowed : allowed step.tool = true)
    (hnew : step.tool ∉ steps.map InvestigationStep.tool)
    (hlen : 1 ≤ maxSteps → ((steps ++ [step]).length : ℤ) ≤ maxSteps) :
    SaneSteps allowed maxSteps (steps ++ [step]) where
  allowed s hs := by
    rcases List.mem_append.mp hs with hs | hs
    · exact h.allowed s hs
    · rw [List.mem_singleton.mp hs]
      exact hallowed
  nodup := by
    rw [List.map_append, List.nodup_append]
    refine ⟨h.nodup, List.nodup_singleton _, fun a ha b hb hab => ?_⟩
    rw [List.map_singleton, List.mem_singleton] at hb
    exact hnew (hb ▸ hab ▸ ha)
  length_le := hlen

theorem keepAllowed_sane {rest : List InvestigationStep}
    (h : SaneSteps allowed maxSteps steps) (hlen : 1 ≤ maxSteps → (steps.length : ℤ) < maxSteps) :
    SaneSteps allowed maxSteps (keepAllowed maxSteps allowed steps rest) := by
  induction rest generalizing steps with
  | nil => exact h
  | cons step rest ih =>
    rw [keepAllowed]
    have hsucc : ((steps ++ [step]).length : ℤ) = steps.length + 1 := by simp
    split_ifs with hskip hfull
    · exact ih h hlen
    · rw [not_or, Bool.not_eq_false] at hskip
      exact h.snoc hskip.1 hskip.2 (fun hmax => by have := hlen hmax; omega)
    · rw [not_or, Bool.not_eq_false] at hskip
      exact ih (h.snoc hskip.1 hskip.2 (fun _ => by omega)) (fun _ => by omega)

theorem policySteps_tools {platform : Platform} {tools : List String}
    (h : policySteps platform tools = .ok steps) :
    steps.map InvestigationStep.tool = tools ∧
      ∀ tool ∈ tools, ((toolPoliciesFor platform).lookup tool).isSome = true := by
  induction tools generalizing steps with
  | nil =>
    cases h
    exact ⟨rfl, fun _ h => absurd h List.not_mem_nil⟩
  | cons tool tools ih =>
    rw [policySteps, policyStep] at h
    cases hlookup : (toolPoliciesFor platform).lookup tool with
    | none =>
      rw [hlookup] at h
      cases h
    | some policy =>
      rw [hlookup] at h
      cases hstep : InvestigationStep.validate tool policy.description with
      | error e =>
        simp only [hstep] at h
        cases h
      | ok step =>
        simp only [hstep] at h
        cases hrest : policySteps platform tools with
        | error e =>
          rw [hrest] at h
          cases h
        | ok rest =>
          rw [hrest] at h
          cases h
          obtain ⟨htools, hlookups⟩ := ih hrest
          refine ⟨?_, fun t ht => ?_⟩
          · rw [List.map_cons, htools, InvestigationStep.tool_of_validate hstep]
          · rcases List.mem_cons.mp ht with rfl | ht
            · rw [hlookup]
              rfl
            · exact hlookups t ht

theorem minName_mem {names : List String} {name : String} (h : minName names = some name) :
    name ∈ names := by
  cases names with
  | nil => cases h
  | cons x xs =>
    rw [minName, Option.some.injEq] at h
    subst h
    -- the running minimum is always one of the names seen so far
    have hfold : ∀ (ys : List String) (a : String),
        ys.foldl (fun a b => if b < a then b else a) a ∈ a :: ys := by
      intro ys
      induction ys with
      | nil => exact fun a => List.mem_singleton.mpr rfl
      | cons y ys ih =>
        intro a
        rw [List.foldl_cons]
        have hmem := ih (if y < a then y else a)
        rcases List.mem_cons.mp hmem with h | h
        · rw [h]
          split_ifs <;> simp
        · exact List.mem_cons_of_mem _ (List.mem_cons_of_mem _ h)
    exact hfold xs x

end Sanitize

variable {plan p : InvestigationPlan} {maxSteps : ℤ} {customNames : List String}
  {platform : Platform}

theorem orBaseline_sane {steps steps' : List InvestigationStep}
    (h : SaneSteps (allowedTool customNames platform) maxSteps steps)
    (hok : orBaseline maxSteps platform steps = .ok steps') :
    SaneSteps (allowedTool customNames platform) maxSteps steps' := by
  unfold orBaseline at hok
  split_ifs at hok with hnone
  · obtain ⟨htools, hlookup⟩ := policySteps_tools hok
    have hsub : (takeTo maxSteps baselineTools).Sublist baselineTools := by
      unfold takeTo
      split_ifs <;> exact List.take_sublist _ _
    refine ⟨fun step hstep => ?_, ?_, fun hmax => ?_⟩
    · have hmem : step.tool ∈ takeTo maxSteps baselineTools :=
        htools ▸ List.mem_map.mpr ⟨step, hstep, rfl⟩
      rw [allowedTool, hlookup _ hmem, Bool.true_or]
    · rw [htools]
      exact List.Nodup.sublist hsub (by decide)
    · have hlen : steps'.length = (takeTo maxSteps baselineTools).length := by
        rw [← htools, List.length_map]
      rw [hlen, takeTo_of_nonneg (by omega), List.length_take]
      omega
  · cases hok
    exact h

theorem orCustom_sane {steps steps' : List InvestigationStep}
    (h : SaneSteps (allowedTool customNames platform) maxSteps steps)
    (hok : orCustom customNames steps = .ok steps') :
    SaneSteps (allowedTool customNames platform) maxSteps steps' := by
  unfold orCustom at hok
  split at hok
  · rename_i tool hmin
    cases hstep : InvestigationStep.validate tool "Artifact phù hợp nền tảng do backend cấp" with
    | error e =>
      rw [hstep] at hok
      cases hok
    | ok step =>
      rw [hstep] at hok
      cases hok
      refine ⟨fun s hs => ?_, List.nodup_singleton _, fun hmax => by simpa using hmax⟩
      rw [List.mem_singleton.mp hs, InvestigationStep.tool_of_validate hstep, allowedTool,
        decide_eq_true (minName_mem hmin), Bool.or_true]
  · cases hok
    exact h

/-- **A sanitized plan** keeps the hypothesis; its tools are allowed and differ, and it has at most
`maxSteps` steps if that is positive. -/
theorem sanitizePlan_spec (h : sanitizePlan plan maxSteps customNames platform = .ok p) :
    p.hypothesis = plan.hypothesis ∧
      SaneSteps (allowedTool customNames platform) maxSteps p.steps := by
  unfold sanitizePlan at h
  have hkeep : SaneSteps (allowedTool customNames platform) maxSteps
      (keepAllowed maxSteps (allowedTool customNames platform) [] plan.steps) :=
    keepAllowed_sane ⟨fun _ h => absurd h List.not_mem_nil, List.nodup_nil, fun hmax => by
      simpa using by omega⟩ (fun hmax => by simpa using by omega)
  cases hbase : orBaseline maxSteps platform
      (keepAllowed maxSteps (allowedTool customNames platform) [] plan.steps) with
  | error e =>
    rw [hbase] at h
    cases h
  | ok steps =>
    rw [hbase] at h
    cases hcustom : orCustom customNames steps with
    | error e =>
      simp only [hcustom] at h
      cases h
    | ok steps' =>
      simp only [hcustom] at h
      obtain ⟨hhyp, hsteps⟩ := InvestigationPlan.validate_eq_ok h
      refine ⟨hhyp, ?_⟩
      rw [hsteps]
      exact orCustom_sane (orBaseline_sane hkeep hbase) hcustom

theorem sanitizePlan_singleton {step : InvestigationStep} (hsteps : plan.steps = [step])
    (hallowed : allowedTool customNames platform step.tool = true) :
    ∃ p, sanitizePlan plan maxSteps customNames platform = .ok p ∧ p.steps = [step] := by
  have hkeep : keepAllowed maxSteps (allowedTool customNames platform) [] plan.steps = [step] := by
    rw [hsteps, keepAllowed, if_neg (by simp [hallowed])]
    split_ifs <;> rfl
  obtain ⟨p, hp⟩ := plan.exists_validate [step] ⟨le_refl 1, by simp⟩
  refine ⟨p, ?_, (InvestigationPlan.validate_eq_ok hp).2⟩
  rw [sanitizePlan, hkeep, orBaseline, if_neg (by simp)]
  exact hp

end AssetInventory.DeepAgent

import AssetInventory.DeepAgent.Steps

/-!
# When there is a plan to make

The node `plan` cuts the model's plan down to the allowed tools.  If nothing is left it falls back on a
fixed list, on Windows, and on the custom tools of the first stage elsewhere; a request may have none of
these, and then the reconstructed plan has no step and is refused.

* `firstAllowed`: the allowed steps of a plan, each tool once; `keepAllowed_eq`: the loop takes the first
  ones of them.
* `UsablePlan`: what a plan of the node is to be; `plansUsably_iff`: when it is.
-/

namespace AssetInventory.DeepAgent

open PyJson

/-! ## The steps that are kept -/

/-- The allowed steps of a list, each tool once. -/
def firstAllowed (allowed : String → Bool) (steps : List InvestigationStep) :
    List InvestigationStep :=
  dedupTools (steps.filter fun step => allowed step.tool)

/-- The allowed steps with a tool that is not yet taken. -/
def stillAllowed (allowed : String → Bool) (taken : List String) (tool : String) : Bool :=
  allowed tool && decide (tool ∉ taken)

theorem stillAllowed_nil (allowed : String → Bool) : stillAllowed allowed [] = allowed := by
  funext tool
  simp [stillAllowed]

theorem firstAllowed_snoc (allowed : String → Bool) (taken : List String) (tool : String)
    (steps : List InvestigationStep) : firstAllowed (stillAllowed allowed (taken ++ [tool])) steps =
      (firstAllowed (stillAllowed allowed taken) steps).filter
        fun step => decide (step.tool ≠ tool) := by
  have hfilter : (steps.filter fun step => stillAllowed allowed (taken ++ [tool]) step.tool) =
      (steps.filter fun step => stillAllowed allowed taken step.tool).filter
        fun step => decide (step.tool ≠ tool) := by
    rw [List.filter_filter]
    refine List.filter_congr fun step _ => ?_
    simp only [stillAllowed, List.mem_append, List.mem_singleton, not_or, Bool.decide_and]
    cases allowed step.tool <;> cases decide (step.tool ∉ taken) <;>
      cases decide (step.tool ≠ tool) <;> rfl
  rw [firstAllowed, hfilter, dedupTools_filter fun other => decide (other ≠ tool)]
  rfl

/-- **The loop of `sanitize_plan`** takes the first allowed steps with different tools. -/
theorem keepAllowed_eq {maxSteps : ℤ} (allowed : String → Bool) (steps rest : List InvestigationStep)
    (hlen : (steps.length : ℤ) < maxSteps) : keepAllowed maxSteps allowed steps rest = steps ++
      (firstAllowed (stillAllowed allowed (steps.map InvestigationStep.tool)) rest).take
        (maxSteps.toNat - steps.length) := by
  induction rest generalizing steps with
  | nil => simp [keepAllowed, firstAllowed, dedupTools]
  | cons step rest ih =>
    rw [keepAllowed]
    by_cases hskip : allowed step.tool = false ∨ step.tool ∈ steps.map InvestigationStep.tool
    · have hnot : ¬ stillAllowed allowed (steps.map InvestigationStep.tool) step.tool = true := by
        rcases hskip with h | h <;> simp [stillAllowed, h]
      rw [if_pos hskip, ih steps hlen, firstAllowed, firstAllowed, List.filter_cons, if_neg hnot]
    · have hstill : stillAllowed allowed (steps.map InvestigationStep.tool) step.tool = true := by
        rw [not_or, Bool.not_eq_false] at hskip
        rw [stillAllowed, hskip.1, decide_eq_true hskip.2]
        rfl
      obtain ⟨k, hk⟩ : ∃ k, maxSteps.toNat - steps.length = k + 1 :=
        ⟨maxSteps.toNat - steps.length - 1, by omega⟩
      have hhead : firstAllowed (stillAllowed allowed (steps.map InvestigationStep.tool))
          (step :: rest) = step ::
            firstAllowed (stillAllowed allowed ((steps ++ [step]).map InvestigationStep.tool)) rest := by
        rw [List.map_append, List.map_singleton, firstAllowed_snoc, firstAllowed, List.filter_cons,
          if_pos hstill, dedupTools]
        rfl
      have hsucc : (steps ++ [step]).length = steps.length + 1 := by simp
      rw [if_neg hskip, hhead, hk, List.take_succ_cons]
      split_ifs with hfull
      · have hzero : k = 0 := by omega
        rw [hzero, List.take_zero]
      · rw [ih (steps ++ [step]) (by omega), List.append_assoc, List.singleton_append]
        have hrest : maxSteps.toNat - (steps ++ [step]).length = k := by omega
        rw [hrest]

theorem keepAllowed_nil {maxSteps : ℤ} (hmax : 1 ≤ maxSteps) (allowed : String → Bool)
    (rest : List InvestigationStep) :
    keepAllowed maxSteps allowed [] rest = (firstAllowed allowed rest).take maxSteps.toNat := by
  have h := keepAllowed_eq allowed [] rest (show ((0 : ℕ) : ℤ) < maxSteps by omega)
  simpa [stillAllowed_nil] using h

theorem length_firstAllowed_le (allowed : String → Bool) (steps : List InvestigationStep) :
    (firstAllowed allowed steps).length ≤ steps.length := by
  have hdedup : ∀ l : List InvestigationStep, (dedupTools l).length ≤ l.length := by
    intro l
    induction l with
    | nil => exact le_refl 0
    | cons step l ih =>
      have hfilter := List.length_filter_le (fun other => decide (other.tool ≠ step.tool))
        (dedupTools l)
      rw [dedupTools, List.length_cons, List.length_cons]
      omega
  exact (hdedup _).trans (List.length_filter_le _ _)

/-! ## The fallbacks -/

/-- The steps of bridge helpers can be built: each policy has a description that is admitted. -/
theorem exists_policySteps {tools : List String} (h : ∀ tool ∈ tools, tool ∈ baselineTools) :
    ∃ steps, policySteps .windows tools = .ok steps := by
  induction tools with
  | nil => exact ⟨[], rfl⟩
  | cons tool tools ih =>
    have hall : ∀ tool ∈ baselineTools, (policyStep .windows tool).isOk = true := by decide +kernel
    obtain ⟨rest, hrest⟩ := ih fun t ht => h t (List.mem_cons_of_mem _ ht)
    have hok := hall tool (h tool List.mem_cons_self)
    cases hstep : policyStep .windows tool with
    | error e =>
      rw [hstep] at hok
      cases hok
    | ok step => exact ⟨step :: rest, by rw [policySteps, hstep, hrest]; rfl⟩

theorem exists_customStep (tool : String) : ∃ step,
    InvestigationStep.validate tool "Artifact phù hợp nền tảng do backend cấp" = .ok step := by
  rw [InvestigationStep.validate, dif_pos (by decide)]
  exact ⟨_, rfl⟩

theorem exists_minName {names : List String} (h : names ≠ []) :
    ∃ name, minName names = some name := by
  cases names with
  | nil => exact absurd rfl h
  | cons name names => exact ⟨_, rfl⟩

variable {raw p : InvestigationPlan} {maxSteps : ℤ} {customNames : List String}
  {platform : Platform}

/-- **After the fallbacks** there are steps exactly if there were some, or the platform is Windows, or
there is a custom tool; steps that were there are kept. -/
theorem exists_fallback (customNames : List String) (platform : Platform) (hmax : 1 ≤ maxSteps)
    (steps : List InvestigationStep) :
    ∃ based final, orBaseline maxSteps platform steps = .ok based ∧
      orCustom customNames based = .ok final ∧ final.length ≤ max steps.length 6 ∧
      (steps ≠ [] → final = steps) ∧
      (final = [] ↔ steps = [] ∧ platform ≠ .windows ∧ customNames = []) := by
  by_cases hsteps : steps = []
  · by_cases hplatform : platform = .windows
    · -- the fixed list is not empty
      have hsub : ∀ tool ∈ takeTo maxSteps baselineTools, tool ∈ baselineTools := by
        rw [takeTo_of_nonneg (by omega)]
        exact fun tool => List.mem_of_mem_take
      obtain ⟨based, hbased⟩ := exists_policySteps hsub
      have hlen : based.length = min maxSteps.toNat 6 := by
        have htools := congrArg List.length (policySteps_tools hbased).1
        rwa [List.length_map, takeTo_of_nonneg (by omega), List.length_take] at htools
      cases based with
      | nil =>
        rw [List.length_nil] at hlen
        omega
      | cons step rest =>
        refine ⟨step :: rest, step :: rest, ?_, ?_, ?_, fun h => absurd hsteps h, ?_⟩
        · rw [orBaseline, if_pos ⟨hsteps, hplatform⟩, hplatform, hbased]
        · rfl
        · omega
        · exact ⟨fun h => absurd h (List.cons_ne_nil _ _), fun h => absurd hplatform h.2.1⟩
    · have hbased : orBaseline maxSteps platform steps = .ok [] := by
        rw [orBaseline, if_neg fun h => hplatform h.2, hsteps]
      by_cases hnames : customNames = []
      · refine ⟨[], [], hbased, ?_, Nat.zero_le _, fun h => absurd hsteps h, ?_⟩
        · rw [hnames]
          rfl
        · exact ⟨fun _ => ⟨hsteps, hplatform, hnames⟩, fun _ => rfl⟩
      · obtain ⟨tool, htool⟩ := exists_minName hnames
        obtain ⟨step, hstep⟩ := exists_customStep tool
        refine ⟨[], [step], hbased, ?_, ?_, fun h => absurd hsteps h, ?_⟩
        · simp only [orCustom, htool, hstep]
          rfl
        · rw [List.length_singleton]
          omega
        · exact ⟨fun h => absurd h (List.cons_ne_nil _ _), fun h => absurd h.2.2 hnames⟩
  · refine ⟨steps, steps, ?_, ?_, le_max_left _ _, fun _ => rfl, ?_⟩
    · rw [orBaseline, if_neg fun h => hsteps h.1]
    · cases steps with
      | nil => exact absurd rfl hsteps
      | cons step rest => rfl
    · exact ⟨fun h => absurd h hsteps, fun h => h.1⟩

/-- **When `sanitize_plan` returns a plan.** -/
theorem exists_sanitizePlan_iff (hmax : 1 ≤ maxSteps) :
    (∃ p, sanitizePlan raw maxSteps customNames platform = .ok p) ↔
      firstAllowed (allowedTool customNames platform) raw.steps ≠ [] ∨ platform = .windows ∨
        customNames ≠ [] := by
  have hkept : keepAllowed maxSteps (allowedTool customNames platform) [] raw.steps =
      (firstAllowed (allowedTool customNames platform) raw.steps).take maxSteps.toNat :=
    keepAllowed_nil hmax _ _
  have hempty : keepAllowed maxSteps (allowedTool customNames platform) [] raw.steps = [] ↔
      firstAllowed (allowedTool customNames platform) raw.steps = [] := by
    rw [hkept, List.take_eq_nil_iff]
    exact or_iff_right (by omega)
  obtain ⟨based, final, hbased, hfinal, hlen, -, hnil⟩ := exists_fallback customNames platform hmax
    (keepAllowed maxSteps (allowedTool customNames platform) [] raw.steps)
  have hle : final.length ≤ 12 := by
    have hraw := raw.steps_length.2
    have hfirst := length_firstAllowed_le (allowedTool customNames platform) raw.steps
    rw [hkept, List.length_take] at hlen
    omega
  have heq : sanitizePlan raw maxSteps customNames platform =
      InvestigationPlan.validate raw.hypothesis final := by
    simp only [sanitizePlan, hbased, hfinal]
  rw [heq, ← not_iff_not, not_or, not_or, not_not, not_not, ← hempty, ← hnil]
  constructor
  · intro hnone
    by_contra hne
    exact hnone (raw.exists_validate final ⟨List.length_pos_iff.mpr hne, hle⟩)
  · rintro rfl ⟨p, hp⟩
    have hsteps := (InvestigationPlan.validate_eq_ok hp).2
    have hpos := p.steps_length.1
    rw [hsteps] at hpos
    exact absurd hpos (by decide)

theorem sanitizePlan_keeps (hmax : 1 ≤ maxSteps)
    (h : sanitizePlan raw maxSteps customNames platform = .ok p)
    (hsome : firstAllowed (allowedTool customNames platform) raw.steps ≠ []) :
    p.steps = (firstAllowed (allowedTool customNames platform) raw.steps).take maxSteps.toNat := by
  have hkept : keepAllowed maxSteps (allowedTool customNames platform) [] raw.steps =
      (firstAllowed (allowedTool customNames platform) raw.steps).take maxSteps.toNat :=
    keepAllowed_nil hmax _ _
  have hne : keepAllowed maxSteps (allowedTool customNames platform) [] raw.steps ≠ [] := by
    rw [hkept, Ne, List.take_eq_nil_iff]
    exact fun hnil => hnil.elim (by omega) hsome
  obtain ⟨based, final, hbased, hfinal, -, hsame, -⟩ := exists_fallback customNames platform hmax
    (keepAllowed maxSteps (allowedTool customNames platform) [] raw.steps)
  simp only [sanitizePlan, hbased, hfinal] at h
  rw [(InvestigationPlan.validate_eq_ok h).2, hsame hne, hkept]

/-! ## The node `plan` -/

/-- **A usable plan**: at least one step and at most `n`, with different tools that are bridge helpers of
the platform or candidates of the first stage; the first allowed steps of the model, if there are any. -/
structure UsablePlan (request : InvestigationRequest) (n : ℤ) (raw p : InvestigationPlan) : Prop where
  length : 1 ≤ p.steps.length ∧ (p.steps.length : ℤ) ≤ n
  nodup : (p.steps.map InvestigationStep.tool).Nodup
  allowed : ∀ step ∈ p.steps,
    ((toolPoliciesFor request.targetPlatform).lookup step.tool).isSome = true ∨
      step.tool ∈ initialCustomToolNames request
  keeps : firstAllowed (allowedTool (initialCustomToolNames request) request.targetPlatform)
      raw.steps ≠ [] →
    p.steps = (firstAllowed (allowedTool (initialCustomToolNames request) request.targetPlatform)
      raw.steps).take n.toNat

/-- The node `plan` makes a usable plan of the model's. -/
def PlansUsably (settings : Settings) (request : InvestigationRequest) (answers : Answers)
    (raw : InvestigationPlan) : Prop :=
  ∃ p, initialPlan settings request answers = .ok p ∧
    UsablePlan request (min settings.maxSteps initialTriageMaxSteps) raw p

theorem windows_or_candidate {customNames : List String} {platform : Platform} {tool : String}
    (h : allowedTool customNames platform tool = true) :
    platform = .windows ∨ tool ∈ customNames := by
  rw [allowedTool, Bool.or_eq_true, decide_eq_true_eq] at h
  cases platform with
  | windows => exact Or.inl rfl
  | linux => exact Or.inr (h.resolve_left Bool.false_ne_true)
  | macos => exact Or.inr (h.resolve_left Bool.false_ne_true)

/-- **A plan can be made** exactly if the target is a Windows client or the first stage has a
candidate. -/
theorem plansUsably_iff {settings : Settings} {request : InvestigationRequest} {answers : Answers}
    (hraw : answers.plan = .ok raw) (hmax : 1 ≤ settings.maxSteps) :
    PlansUsably settings request answers raw ↔
      request.targetPlatform = .windows ∨ initialCustomToolNames request ≠ [] := by
  have hmin : 1 ≤ min settings.maxSteps initialTriageMaxSteps := le_min hmax (by decide)
  have hplan : initialPlan settings request answers =
      sanitizePlan raw (min settings.maxSteps initialTriageMaxSteps)
        (initialCustomToolNames request) request.targetPlatform := by
    rw [initialPlan, hraw]
  rw [PlansUsably, hplan]
  constructor
  · rintro ⟨p, hp, -⟩
    rcases (exists_sanitizePlan_iff hmin).mp ⟨p, hp⟩ with hsome | hrest
    · obtain ⟨step, hstep⟩ := List.exists_mem_of_ne_nil _ hsome
      have hallowed := (List.mem_filter.mp (mem_of_mem_dedupTools hstep)).2
      exact (windows_or_candidate hallowed).imp_right List.ne_nil_of_mem
    · exact hrest
  · intro hcandidate
    have hexists : ∃ p, sanitizePlan raw (min settings.maxSteps initialTriageMaxSteps)
        (initialCustomToolNames request) request.targetPlatform = .ok p :=
      (exists_sanitizePlan_iff hmin).mpr (Or.inr hcandidate)
    obtain ⟨p, hp⟩ := hexists
    have hsane := (sanitizePlan_spec hp).2
    refine ⟨p, hp, ⟨p.steps_length.1, hsane.length_le hmin⟩, hsane.nodup, fun step hstep => ?_,
      sanitizePlan_keeps hmin hp⟩
    have hallowed := hsane.allowed step hstep
    rwa [allowedTool, Bool.or_eq_true, decide_eq_true_eq] at hallowed

/-- On a Windows client there is always a plan, whatever the model proposes. -/
theorem plansUsably_on_windows :
    PlansUsably (exampleSettings 100) (exampleRequest [triageRef .two] (by decide))
      (exampleAnswers (examplePlan "run_vql") []) (examplePlan "run_vql") :=
  (plansUsably_iff rfl (by decide)).mpr (Or.inl rfl)

/-- A request for a client with macOS. -/
def macosRequest : InvestigationRequest :=
  { exampleRequest [triageRef .two] (by decide) with targetPlatform := .macos }

/-- **No plan**: the fixed list of the first stage has no artifact for macOS. -/
theorem no_plan_on_macos : ¬ PlansUsably (exampleSettings 100) macosRequest
      (exampleAnswers (examplePlan "windows_pslist") []) (examplePlan "windows_pslist") := by
  rintro ⟨p, hp, -⟩
  have hnone : (initialPlan (exampleSettings 100) macosRequest
      (exampleAnswers (examplePlan "windows_pslist") [])).isOk = false := by
    decide +kernel
  rw [hp] at hnone
  cases hnone

end AssetInventory.DeepAgent

import AssetInventory.DeepAgent.Steps

/-!
# Evidence ids

A step at index `i` gives its first item the number `i + 1`, and the details of an event-log step the
numbers after it, while the index moves on by one only.  So the items of a run are numbered without gaps
up to the first step with details, and the step after it, if there is one, takes the number of the first
detail.

* `ids_collectAt`: the numbers of the items of a step.
* `Numbered`: the numbers in the evidence before a visit.
* `evidence_ids_nodup_iff`: the ids of a run differ exactly if no step is collected after details.
-/

namespace AssetInventory.DeepAgent

open PyJson PyTime Workflow

/-- No item is an event-log detail. -/
def NoDetails (evidence : List EvidenceItem) : Prop :=
  ∀ item ∈ evidence, item.tool ≠ "windows_event_logs_detail"

def ids (evidence : List EvidenceItem) : List String := evidence.map EvidenceItem.evidenceId

/-- The first `k` ids. -/
def firstIds (k : ℕ) : List String := (List.range k).map fun i => evidenceId (i + 1)

theorem evidenceId_inj {m n : ℕ} (h : evidenceId m = evidenceId n) : m = n := by
  rw [evidenceId, evidenceId, String.append_right_inj] at h
  exact zeroPad_inj h

-- from here on an id is read by `evidenceId_inj` only
attribute [local irreducible] evidenceId

theorem nodup_firstIds (k : ℕ) : (firstIds k).Nodup := by
  have hinj : Function.Injective fun i : ℕ => evidenceId (i + 1) := fun _ _ h =>
    Nat.succ_injective (evidenceId_inj h)
  exact List.nodup_range.map hinj

theorem mem_firstIds {k i : ℕ} (h : i < k) : evidenceId (i + 1) ∈ firstIds k :=
  List.mem_map.mpr ⟨i, List.mem_range.mpr h, rfl⟩

theorem firstIds_add (j k : ℕ) :
    firstIds (j + k) = firstIds j ++ (List.range k).map fun i => evidenceId (j + 1 + i) := by
  rw [firstIds, firstIds, List.range_add, List.map_append, List.map_map]
  congr 1
  refine List.map_congr_left fun i _ => ?_
  rw [Function.comp_apply, Nat.add_right_comm]

theorem ids_cons (x : EvidenceItem) (xs : List EvidenceItem) :
    ids (x :: xs) = x.evidenceId :: ids xs := rfl

@[simp] theorem ids_append (xs ys : List EvidenceItem) : ids (xs ++ ys) = ids xs ++ ids ys :=
  List.map_append

theorem noDetails_append {xs ys : List EvidenceItem} :
    NoDetails (xs ++ ys) ↔ NoDetails xs ∧ NoDetails ys := by
  simp only [NoDetails, List.mem_append, or_imp, forall_and]

variable {settings : Settings} {request : InvestigationRequest} {answers : Answers}
  {s t : InvestigationState} {n m : Node} {vs : List GraphVisit}

@[simp] theorem logItem_evidenceId (id tool : String) (collectedAt : Time)
    (result : Except McpError (List (String × Json))) :
    (logItem id tool collectedAt result).evidenceId = id := by
  cases result <;> rfl

theorem payloadItem_evidenceId (id tool : String) (collectedAt : Time)
    (payload : List (String × Json)) :
    (payloadItem id tool collectedAt payload).evidenceId = id := by
  unfold payloadItem
  split_ifs
  · split <;> rfl
  · rfl

theorem ids_details (settings : Settings) (request : InvestigationRequest) (answers : Answers)
    (index : ℕ) (xs : List EventLogExpansion) (k : ℕ) :
    ids ((xs.zipIdx k).map (detailItem settings request answers index)) =
      (List.range xs.length).map fun i => evidenceId (index + 1 + (k + i)) := by
  induction xs generalizing k with
  | nil => rfl
  | cons x xs ih =>
    rw [List.zipIdx_cons, List.map_cons, ids_cons, ih, detailItem, logItem_evidenceId,
      List.length_cons, List.range_succ_eq_map, List.map_cons, List.map_map]
    congr 1
    refine List.map_congr_left fun i _ => ?_
    rw [Function.comp_apply, Nat.succ_eq_add_one, Nat.add_assoc k 1 i, Nat.add_comm 1 i]

theorem exists_expansionsAfter (request : InvestigationRequest) (answers : Answers) (index : ℕ)
    (result : Except McpError (List (String × Json))) : ∃ xs : List EventLogExpansion,
      (expansionsAfter request answers index result).1 = xs.zipIdx 1 := by
  cases result with
  | error e => exact ⟨[], rfl⟩
  | ok data => exact ⟨_, rfl⟩

/-- **The ids of a step**: as many numbers from `index + 1` on as it has items. -/
theorem ids_collectAt (settings : Settings) (request : InvestigationRequest) (answers : Answers)
    (index : ℕ) (tool : String) : ids (collectAt settings request answers index tool).items =
      (List.range (collectAt settings request answers index tool).items.length).map fun i =>
        evidenceId (index + 1 + i) := by
  by_cases htool : tool = "windows_event_logs"
  · obtain ⟨xs, hxs⟩ := exists_expansionsAfter request answers index
      (triageCall settings request answers index).2
    rw [collectAt, if_pos htool, collectEventLog]
    dsimp only
    rw [hxs, ids_cons, ids_details, logItem_evidenceId, List.length_cons, List.length_map,
      List.length_zipIdx, List.range_succ_eq_map, List.map_cons, List.map_map]
    congr 1
    refine List.map_congr_left fun i _ => ?_
    rw [Function.comp_apply, Nat.succ_eq_add_one, Nat.add_comm 1 i]
  · rw [collectAt, if_neg htool, collectGeneric]
    show [_] = [_]
    congr 1
    split
    · rfl
    · exact payloadItem_evidenceId _ _ _ _

/-! ## Along a run -/

/-- The collections so far all started without details. -/
def Early (vs : List GraphVisit) : Prop :=
  ∀ v ∈ vs, v.node = .collect → NoDetails v.before.evidence

/-- **Before a visit**: as long as nothing was collected after details, the evidence has the first
numbers, as many as steps were collected and details came last; after that two items have one id. -/
structure Numbered (settings : Settings) (request : InvestigationRequest) (answers : Answers)
    (n : Node) (s : InvestigationState) (vs : List GraphVisit) : Prop where
  inv : PlanInv settings request answers n s
  before : n.beforePlan = true → Early vs
  early : Early vs → ∃ k, ids s.evidence = firstIds (s.stepIndex + k) ∧
    (NoDetails s.evidence ↔ k = 0)
  late : ¬ Early vs → ¬ (ids s.evidence).Nodup

theorem early_snoc {v : GraphVisit} :
    Early (vs ++ [v]) ↔ Early vs ∧ (v.node = .collect → NoDetails v.before.evidence) := by
  simp only [Early, List.mem_append, List.mem_singleton, or_imp, forall_and, forall_eq]

theorem Numbered.nodup_iff (h : Numbered settings request answers n s vs) :
    (ids s.evidence).Nodup ↔ Early vs := by
  constructor
  · exact fun hnodup => by_contra fun hlate => h.late hlate hnodup
  · intro hearly
    obtain ⟨k, hids, -⟩ := h.early hearly
    rw [hids]
    exact nodup_firstIds _

variable {es : List Invocation}

theorem Numbered.other (h : Numbered settings request answers n s vs)
    (hn : n ≠ .collect) (hinv : PlanInv settings request answers m t)
    (hm : m.beforePlan = true → n.beforePlan = true) (hindex : t.stepIndex = s.stepIndex)
    (hevidence : t.evidence = s.evidence) :
    Numbered settings request answers m t (vs ++ [⟨n, s, es⟩]) := by
  have hearly : Early (vs ++ [⟨n, s, es⟩]) ↔ Early vs := by
    rw [early_snoc]
    exact and_iff_left fun hcollect => absurd hcollect hn
  refine ⟨hinv, fun hb => hearly.mpr (h.before (hm hb)), ?_, ?_⟩
  · rw [hearly, hindex, hevidence]
    exact h.early
  · rw [hearly, hevidence]
    exact h.late

/-- **A collection.** -/
theorem Numbered.collect (h : Numbered settings request answers .collect s vs)
    (hnode : (collectNode settings request answers s).2 = .ok t)
    (hinv : PlanInv settings request answers m t) (hm : m.beforePlan = false) :
    Numbered settings request answers m t (vs ++ [⟨.collect, s, es⟩]) := by
  obtain ⟨step, hstep, rfl⟩ := collect_ok hnode
  obtain ⟨first, rest, hitems, hfirst, hrest⟩ :=
    collectAt_items settings request answers s.stepIndex step.tool
  have hnew := ids_collectAt settings request answers s.stepIndex step.tool
  have htool := (h.inv.permitted_currentStep hstep).ne_detail
  -- the new items are free of details if there is one only
  have hdetails : NoDetails (collectAt settings request answers s.stepIndex step.tool).items ↔
      rest = [] := by
    rw [hitems]
    constructor
    · intro hno
      by_contra hne
      obtain ⟨item, hitem⟩ := List.exists_mem_of_ne_nil rest hne
      exact hno item (List.mem_cons_of_mem _ hitem) (hrest item hitem)
    · rintro rfl item hitem
      rw [List.mem_singleton.mp hitem, hfirst]
      exact htool
  have hlen : (collectAt settings request answers s.stepIndex step.tool).items.length =
      rest.length + 1 := by rw [hitems, List.length_cons]
  refine ⟨hinv, fun hb => absurd (hm.symm.trans hb) Bool.false_ne_true, fun hearly => ?_,
    fun hlate => ?_⟩
  · obtain ⟨hearly, hno⟩ := early_snoc.mp hearly
    obtain ⟨k, hids, hk⟩ := h.early hearly
    have hzero : k = 0 := hk.mp (hno rfl)
    refine ⟨rest.length, ?_, ?_⟩
    · show ids (s.evidence ++ _) = firstIds (s.stepIndex + 1 + rest.length)
      rw [ids_append, hids, hzero, Nat.add_zero, hnew, hlen, Nat.add_assoc, Nat.add_comm 1,
        firstIds_add]
    · show NoDetails (s.evidence ++ _) ↔ _
      rw [noDetails_append, hdetails, List.length_eq_zero_iff]
      exact and_iff_right (hno rfl)
  · show ¬ (ids (s.evidence ++ _)).Nodup
    rw [ids_append]
    intro hnodup
    have hold := (List.nodup_append.mp hnodup).1
    have hearly : Early vs := by_contra fun hlate => h.late hlate hold
    obtain ⟨k, hids, hk⟩ := h.early hearly
    have hpos : k ≠ 0 := fun hzero => hlate (early_snoc.mpr ⟨hearly, fun _ => hk.mpr hzero⟩)
    -- the number of this step is that of the first detail
    have hmem : evidenceId (s.stepIndex + 1) ∈ ids s.evidence := by
      rw [hids]
      exact mem_firstIds (by omega)
    have hmem' : evidenceId (s.stepIndex + 1) ∈
        ids (collectAt settings request answers s.stepIndex step.tool).items := by
      rw [hnew]
      exact List.mem_map.mpr ⟨0, List.mem_range.mpr (by omega), rfl⟩
    exact (List.nodup_append.mp hnodup).2.2 _ hmem _ hmem' rfl

theorem numbered_initial : Numbered settings request answers .verifyTarget .initial [] where
  inv := planInv_initial
  before _ _ h := absurd h List.not_mem_nil
  early _ := ⟨0, rfl, iff_of_true (fun _ h => absurd h List.not_mem_nil) rfl⟩
  late h := absurd (fun _ h => absurd h List.not_mem_nil) h

/-- **One visit.** -/
theorem numbered_next (h : Numbered settings request answers n s vs)
    (hnode : ((investigationGraph settings request answers).node n s).2 = .ok t)
    (hinv : PlanInv settings request answers m t) (hm : m.beforePlan = true → n.beforePlan = true) :
    Numbered settings request answers m t (vs ++ [⟨n, s, es⟩]) := by
  cases n with
  | verifyTarget =>
    rcases h.inv with ⟨-, -, -, hindex, hevidence⟩ | ⟨hafter, -⟩
    · obtain ⟨metadata, rfl⟩ := verifyTarget_ok hnode
      exact h.other (by rintro ⟨⟩) hinv hm hindex.symm hevidence.symm
    · cases hafter
  | plan =>
    obtain ⟨plan, -, rfl⟩ := plan_ok hnode
    exact h.other (by rintro ⟨⟩) hinv hm rfl rfl
  | collect =>
    refine h.collect hnode hinv ?_
    cases hb : m.beforePlan with
    | false => rfl
    | true => exact absurd (hm hb) (by decide)
  | planTier2 =>
    obtain ⟨reduced, plan, limitations, -, rfl, -⟩ := planTier2_ok hnode
    exact h.other (by rintro ⟨⟩) hinv hm rfl rfl
  | assess =>
    obtain ⟨assessment, rfl⟩ := assess_ok hnode
    exact h.other (by rintro ⟨⟩) hinv hm rfl rfl
  | renderReport =>
    obtain ⟨report, rfl⟩ := renderReport_ok hnode
    exact h.other (by rintro ⟨⟩) hinv hm rfl rfl

theorem Numbered.nodup_iff_snoc (h : Numbered settings request answers n s vs) (hn : n ≠ .collect) :
    (ids s.evidence).Nodup ↔ Early (vs ++ [⟨n, s, es⟩]) := by
  rw [h.nodup_iff, early_snoc]
  exact (and_iff_left fun hcollect => absurd hcollect hn).symm

/-- **The ids of a run** differ exactly if no step is collected when the evidence has event-log details:
if no expansion was accepted, or none before the last step that is collected. -/
theorem evidence_ids_nodup_iff (settings : Settings) (request : InvestigationRequest)
    (answers : Answers) : ((investigate settings request answers).outcome.state.evidence.map
        EvidenceItem.evidenceId).Nodup ↔
      ∀ v ∈ (investigate settings request answers).visited, v.node = .collect →
        ∀ item ∈ v.before.evidence, item.tool ≠ "windows_event_logs_detail" :=
  Graph.run_invariant (g := investigationGraph settings request answers)
    (I := Numbered settings request answers)
    (F := fun outcome vs => (ids outcome.state.evidence).Nodup ↔ Early vs)
    (fun _ _ _ _ _ h hnode hnext =>
      numbered_next h hnode (planInv_next h.inv hnode hnext) (beforePlan_of_next hnext))
    (fun _ _ _ _ h hnode hnext => by
      cases eq_renderReport_of_next hnext
      obtain ⟨report, rfl⟩ := renderReport_ok hnode
      exact h.nodup_iff_snoc (by rintro ⟨⟩))
    (fun _ _ _ _ h hnode => h.nodup_iff_snoc (h.inv.collect_ne_error hnode))
    (fun _ _ _ h => h.nodup_iff) (recursionLimit settings) numbered_initial

/-- An expansion over a minute. -/
def exampleExpansion : RawExpansion :=
  .model ⟨0, minutes 1, ["4624"], "r", by decide, length_exampleRationale, by decide, by decide⟩

/-- A plan that puts the event logs before the process list. -/
def logsFirst : Answers :=
  { exampleAnswers ⟨"h", [exampleStep "windows_event_logs", exampleStep "windows_pslist"],
      length_exampleHypothesis, by simp⟩ [] with
    triage := fun _ => .payload
      [("ok", .bool true), ("data", .obj [("sampled_event_ids", .arr [.num 4624])])]
    expansion := fun _ => some (.ok [exampleExpansion]) }

/-- **Two items with one id**: the detail of the event logs and the process list are both `E-002`. -/
theorem evidence_id_twice : ¬ ((investigate (exampleSettings 120000) (exampleRequest [] (by decide))
      logsFirst).outcome.state.evidence.map EvidenceItem.evidenceId).Nodup := by
  have hids : (investigate (exampleSettings 120000) (exampleRequest [] (by decide))
      logsFirst).outcome.state.evidence.map EvidenceItem.evidenceId =
      ["E-001", "E-002", "E-002"] := by
    decide +kernel
  rw [hids]
  decide

end AssetInventory.DeepAgent

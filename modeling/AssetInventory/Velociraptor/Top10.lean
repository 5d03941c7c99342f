import AssetInventory.Velociraptor.Allowlist

/-!
# The results that are shown in the Top 10

For each artifact of the Top 10 the newest flow that ran it decides what is shown, and whether it is collected again.

* `extractTop10`: what is shown; `findLatestFinishedFlow`: the flow whose results are meant to be reused.
* `FinishedReused`: the results of the newest finished flow are shown, nothing is collected in spite of them, and no
  flow that has failed is shown as running.
* `finishedReused_iff`: this holds exactly when the newest flow of an artifact is finished as soon as any is, and has
  not failed.
-/

namespace AssetInventory.Velociraptor

open PyJson PyTime Server

/-- A row of a table of results. -/
abbrev TableRow := List (String × Json)

/-- A client of the server and its flows, as the methods of `VelociraptorClient` report them. -/
structure ClientView where
  clientId : String
  /-- `_client_system`. -/
  system : Option String
  /-- All flows of the client, the newest first. -/
  flows : List ClientFlow
  /-- The ids of flows are distinct. -/
  nodup : (flows.map ClientFlow.flowId).Nodup
  /-- `get_table` of a flow and an artifact. -/
  getTable : Option String → String → ℤ → Except VelociraptorError (List TableRow)
  /-- `collect_artifact_and_wait`. -/
  collectAndWait : String → Except VelociraptorError String

def ClientView.listClientFlows (velo : ClientView) (limit : ℤ) : List ClientFlow := velo.flows.take limit.toNat

def ClientView.findLatestFinishedFlow (velo : ClientView) (artifact : String) (limit : ℤ) : Option ClientFlow :=
  (velo.listClientFlows limit).find? fun flow => decide (artifact ∈ flow.artifacts ∧ flow.state = "FINISHED")

/-- `source` of an entry. -/
inductive Top10Source where
  | reused | running | collected | missing | error
  deriving DecidableEq

/-- An entry of `artifacts`. -/
structure Top10Events where
  artifact : String
  label : String
  flowId : Option String
  source : Top10Source
  rows : List TableRow
  totalRows : ℕ
  error : Option String

/-- `sort` of the specification of an artifact. -/
def Top10Spec.sort (spec : Top10Spec) : Option String :=
  if spec.artifact = "Windows.Forensics.Prefetch" then some "ModificationTime" else none

section Extract

variable (R : Reprs)

/-- `str(r.get(sort_key) or "")`. -/
def sortText (sortKey : String) (row : TableRow) : String := ((getD row sortKey .null).orElse (.str "")).pyStr R

def topRows (table : List TableRow) (spec : Top10Spec) (topN : ℤ) : List TableRow × ℕ :=
  let sorted := match spec.sort with
    | none => table
    | some sortKey => table.insertionSort fun a b => sortText R sortKey b ≤ sortText R sortKey a
  (takeTo topN sorted, table.length)

variable (velo : ClientView) (collectMissing : Bool) (topN rows : ℤ)

/-- The rows of an artifact that a flow has collected. -/
def tableEntry (spec : Top10Spec) (flowId : Option String) (source : Top10Source) : Top10Events :=
  match velo.getTable flowId spec.artifact rows with
  | .ok table =>
    ⟨spec.artifact, spec.label, flowId, source, (topRows R table spec topN).1, (topRows R table spec topN).2, none⟩
  | .error e => ⟨spec.artifact, spec.label, flowId, .error, [], 0, some e⟩

/-- One round of the loop over the artifacts. -/
def extractSpec (flows : List ClientFlow) (spec : Top10Spec) : Top10Events :=
  match findFlowByArtifact flows spec.artifact with
  | some flow =>
    if flow.state = "FINISHED" then tableEntry R velo topN rows spec flow.flowId .reused
    else ⟨spec.artifact, spec.label, flow.flowId, .running, [], 0, none⟩
  | none =>
    if collectMissing then
      match velo.collectAndWait spec.artifact with
      | .ok flowId => tableEntry R velo topN rows spec (some flowId) .collected
      | .error e => ⟨spec.artifact, spec.label, none, .error, [], 0, some e⟩
    else ⟨spec.artifact, spec.label, none, .missing, [], 0, none⟩

/-- The answer of `extract_top10`. -/
structure Top10Answer where
  clientId : String
  generatedAt : String
  artifacts : List Top10Events
  flows : List ClientFlow

def extractTop10 (now : Time) : Top10Answer :=
  let flows := velo.listClientFlows (max 50 rows)
  { clientId := velo.clientId
    generatedAt := isoformat now
    artifacts := (top10ArtifactsFor velo.system).map (extractSpec R velo collectMissing topN rows flows)
    flows := takeTo topN flows }

/-! ## What is expected -/

/-- **Finished results are reused**: the results of the newest finished flow of an artifact are shown, the loop of
`collect_missing_top10` does not collect the artifact, and a flow that has failed is not shown as running. -/
structure FinishedReused : Prop where
  reused : ∀ now, ∀ spec ∈ top10ArtifactsFor velo.system, ∀ flow,
    velo.findLatestFinishedFlow spec.artifact (max 50 rows) = some flow →
      ∃ table, velo.getTable flow.flowId spec.artifact rows = .ok table ∧
        ⟨spec.artifact, spec.label, flow.flowId, .reused, (topRows R table spec topN).1,
          (topRows R table spec topN).2, none⟩ ∈ (extractTop10 R velo collectMissing topN rows now).artifacts
  notCollected : ∀ spec ∈ top10ArtifactsFor velo.system,
    (velo.findLatestFinishedFlow spec.artifact 50).isSome = true →
      ∀ (out : Outside) (desk : Desk) (allowlist : List String), ∃ new,
        Calls desk (collectSpecs out velo.clientId allowlist (velo.listClientFlows 50)
          (top10ArtifactsFor velo.system) desk).1 new ∧ ∀ call ∈ new, call.artifact ≠ spec.artifact
  neverRunning : ∀ now, ∀ entry ∈ (extractTop10 R velo collectMissing topN rows now).artifacts,
    entry.source = .running → ∀ flow ∈ velo.flows, flow.state = "ERROR" → entry.flowId ≠ flow.flowId

/-- The newest listed flow of an artifact is finished, and its results can be read, or it has not failed, and no other
one is finished. -/
def NewestDecides : Prop :=
  ∀ spec ∈ top10ArtifactsFor velo.system, ∀ flow,
    findFlowByArtifact (velo.listClientFlows (max 50 rows)) spec.artifact = some flow →
      (flow.state = "FINISHED" ∧ ∃ table, velo.getTable flow.flowId spec.artifact rows = .ok table) ∨
        (flow.state ≠ "FINISHED" ∧ flow.state ≠ "ERROR" ∧ ∀ other ∈ velo.listClientFlows (max 50 rows),
          spec.artifact ∈ other.artifacts → other.state ≠ "FINISHED")

/-! ## The newest flow of an artifact -/

section Newest

variable {flows : List ClientFlow} {artifact : String} {flow : ClientFlow}

theorem mem_of_findFlow (h : findFlowByArtifact flows artifact = some flow) :
    flow ∈ flows ∧ artifact ∈ flow.artifacts :=
  ⟨List.mem_of_find?_eq_some h,
    of_decide_eq_true (List.find?_some (p := fun flow : ClientFlow => decide (artifact ∈ flow.artifacts)) h)⟩

theorem find?_finished (h : findFlowByArtifact flows artifact = some flow) (hdone : flow.state = "FINISHED") :
    flows.find? (fun flow => decide (artifact ∈ flow.artifacts ∧ flow.state = "FINISHED")) = some flow := by
  obtain ⟨hran, newer, older, rfl, hnewer⟩ := List.find?_eq_some_iff_append.mp h
  refine List.find?_eq_some_iff_append.mpr ⟨?_, newer, older, rfl, fun f hf => ?_⟩
  · exact decide_eq_true ⟨of_decide_eq_true hran, hdone⟩
  · have hother := hnewer f hf
    simp only [Bool.not_eq_true', decide_eq_false_iff_not] at hother ⊢
    exact fun hboth => hother hboth.1

theorem exists_latestFinished {velo : ClientView} {limit : ℤ} (hmem : flow ∈ velo.listClientFlows limit)
    (hran : artifact ∈ flow.artifacts) (hdone : flow.state = "FINISHED") :
    ∃ newest, velo.findLatestFinishedFlow artifact limit = some newest := by
  refine Option.isSome_iff_exists.mp ?_
  exact List.find?_isSome.mpr ⟨flow, hmem, by simp [hran, hdone]⟩

theorem of_latestFinished {velo : ClientView} {limit : ℤ}
    (h : velo.findLatestFinishedFlow artifact limit = some flow) :
    flow ∈ velo.listClientFlows limit ∧ artifact ∈ flow.artifacts ∧ flow.state = "FINISHED" :=
  ⟨List.mem_of_find?_eq_some h, by simpa using List.find?_some h⟩

theorem exists_findFlow (hmem : flow ∈ flows) (hran : artifact ∈ flow.artifacts) :
    ∃ newest, findFlowByArtifact flows artifact = some newest := by
  refine Option.isSome_iff_exists.mp ?_
  exact List.find?_isSome.mpr ⟨flow, hmem, decide_eq_true hran⟩

theorem findFlow_of_take {m n : ℕ} (hmn : m ≤ n) (h : findFlowByArtifact (flows.take m) artifact = some flow) :
    findFlowByArtifact (flows.take n) artifact = some flow := by
  have hsplit : flows.take n = flows.take m ++ (flows.take n).drop m := by
    refine (List.take_append_drop m (flows.take n)).symm.trans ?_
    rw [List.take_take, min_eq_left hmn]
  rw [findFlowByArtifact, hsplit, List.find?_append]
  exact Option.or_eq_some_iff.mpr (.inl h)

/-- The artifacts that `collect_missing_top10` collects are those whose newest flow is not finished. -/
theorem collected_unfinished (out : Outside) (clientId : String) (allowlist : List String) (flows : List ClientFlow)
    (specs : List Top10Spec) (desk : Desk) :
    ∃ new, Calls desk (collectSpecs out clientId allowlist flows specs desk).1 new ∧
      ∀ call ∈ new, ∀ flow, findFlowByArtifact flows call.artifact = some flow → flow.state ≠ "FINISHED" := by
  induction specs generalizing desk with
  | nil => exact ⟨[], .none rfl, List.forall_mem_nil _⟩
  | cons spec specs ih =>
    by_cases hmem : spec.artifact ∈ allowlist
    · rw [collectSpecs, if_neg (not_not.mpr hmem)]
      split
      · exact ih desk
      · rename_i hunfinished
        have hcall : ∀ call ∈ [(⟨clientId, spec.artifact, desk.allowlist⟩ : CollectCall)],
            ∀ flow, findFlowByArtifact flows call.artifact = some flow → flow.state ≠ "FINISHED" := by
          refine List.forall_mem_singleton.mpr fun flow hflow hdone => ?_
          have hsome : (findFlowByArtifact flows spec.artifact).filter
              (fun flow => decide (flow.state = "FINISHED")) = some flow :=
            Option.filter_eq_some_iff.mpr ⟨hflow, decide_eq_true hdone⟩
          exact absurd (hunfinished.symm.trans hsome) (by simp)
        obtain ⟨new, hcalls, hnew⟩ := ih (collectFrom out spec.artifact [clientId] desk).1
        have hrest : ∃ new, Calls desk (collectSpecs out clientId allowlist flows specs
            (collectFrom out spec.artifact [clientId] desk).1).1 new ∧ ∀ call ∈ new, ∀ flow,
              findFlowByArtifact flows call.artifact = some flow → flow.state ≠ "FINISHED" := by
          refine ⟨_ :: new, ?_, List.forall_mem_append.mpr ⟨hcall, hnew⟩⟩
          rw [Calls] at hcalls ⊢
          exact hcalls.trans (List.append_assoc _ _ _)
        dsimp only
        split
        · exact hrest
        · exact hrest
        · exact ⟨_, rfl, hcall⟩
    · rw [collectSpecs, if_pos hmem]
      exact ih desk

end Newest

/-! ## When finished results are reused -/

section Reused

variable {R velo collectMissing topN rows}

theorem tableEntry_of_ok {spec : Top10Spec} {flowId : Option String} {source : Top10Source} {table : List TableRow}
    (h : velo.getTable flowId spec.artifact rows = .ok table) :
    tableEntry R velo topN rows spec flowId source =
      ⟨spec.artifact, spec.label, flowId, source, (topRows R table spec topN).1, (topRows R table spec topN).2,
        none⟩ := by
  rw [tableEntry, h]

variable (R velo collectMissing topN rows) in
theorem names_extractSpec (flows : List ClientFlow) (spec : Top10Spec) :
    (extractSpec R velo collectMissing topN rows flows spec).artifact = spec.artifact ∧
      (extractSpec R velo collectMissing topN rows flows spec).label = spec.label := by
  have htable : ∀ flowId source,
      (tableEntry R velo topN rows spec flowId source).artifact = spec.artifact ∧
        (tableEntry R velo topN rows spec flowId source).label = spec.label := by
    intro flowId source
    unfold tableEntry
    cases velo.getTable flowId spec.artifact rows <;> exact ⟨rfl, rfl⟩
  unfold extractSpec
  cases findFlowByArtifact flows spec.artifact with
  | some flow =>
    dsimp only
    split_ifs
    · exact htable _ _
    · exact ⟨rfl, rfl⟩
  | none =>
    dsimp only
    split_ifs
    · cases velo.collectAndWait spec.artifact with
      | ok flowId => exact htable _ _
      | error e => exact ⟨rfl, rfl⟩
    · exact ⟨rfl, rfl⟩

theorem of_running {flows : List ClientFlow} {spec : Top10Spec}
    (h : (extractSpec R velo collectMissing topN rows flows spec).source = .running) :
    ∃ newest, findFlowByArtifact flows spec.artifact = some newest ∧ newest.state ≠ "FINISHED" ∧
      (extractSpec R velo collectMissing topN rows flows spec).flowId = newest.flowId := by
  have htable : ∀ flowId source, source ≠ .running →
      (tableEntry R velo topN rows spec flowId source).source ≠ .running := by
    intro flowId source hsource
    unfold tableEntry
    cases velo.getTable flowId spec.artifact rows with
    | ok table => exact hsource
    | error e => exact Top10Source.noConfusion
  unfold extractSpec at h ⊢
  cases hflow : findFlowByArtifact flows spec.artifact with
  | some flow =>
    rw [hflow] at h
    by_cases hdone : flow.state = "FINISHED"
    · exact absurd ((congrArg Top10Events.source (if_pos hdone)).symm.trans h) (htable _ _ (by decide))
    · exact ⟨flow, rfl, hdone, congrArg Top10Events.flowId (if_neg hdone)⟩
  | none =>
    rw [hflow] at h
    dsimp only at h
    split_ifs at h
    · cases hcollect : velo.collectAndWait spec.artifact with
      | ok flowId =>
        rw [hcollect] at h
        exact absurd h (htable _ _ (by decide))
      | error e =>
        rw [hcollect] at h
        cases h

theorem extractSpec_of_mem {spec : Top10Spec} {now : Time} {entry : Top10Events}
    (h : entry ∈ (extractTop10 R velo collectMissing topN rows now).artifacts)
    (hartifact : entry.artifact = spec.artifact) (hlabel : entry.label = spec.label) :
    extractSpec R velo collectMissing topN rows (velo.listClientFlows (max 50 rows)) spec = entry := by
  obtain ⟨other, -, rfl⟩ := List.mem_map.mp h
  obtain ⟨hname, htext⟩ := names_extractSpec R velo collectMissing topN rows (velo.listClientFlows (max 50 rows)) other
  have hsame : other = spec := by
    obtain ⟨artifact, label⟩ := other
    obtain ⟨artifact', label'⟩ := spec
    rw [hname] at hartifact
    rw [htext] at hlabel
    cases hartifact
    cases hlabel
    rfl
  rw [hsame]

/-- **Finished results are reused exactly when** the newest flow of each artifact decides about them. -/
theorem finishedReused_iff :
    FinishedReused R velo collectMissing topN rows ↔ NewestDecides velo rows := by
  constructor
  · rintro ⟨hreused, -, hrunning⟩ spec hspec flow hflow
    by_cases hdone : flow.state = "FINISHED"
    · obtain ⟨table, htable, -⟩ := hreused 0 spec hspec flow (find?_finished hflow hdone)
      exact .inl ⟨hdone, table, htable⟩
    · have hentry : extractSpec R velo collectMissing topN rows (velo.listClientFlows (max 50 rows)) spec =
          ⟨spec.artifact, spec.label, flow.flowId, .running, [], 0, none⟩ := by
        rw [extractSpec, hflow]
        exact if_neg hdone
      refine .inr ⟨hdone, fun herror => ?_, fun other hother hran hfinished => ?_⟩
      · have hmem : (⟨spec.artifact, spec.label, flow.flowId, .running, [], 0, none⟩ : Top10Events) ∈
            (extractTop10 R velo collectMissing topN rows 0).artifacts :=
          List.mem_map.mpr ⟨spec, hspec, hentry⟩
        exact hrunning 0 _ hmem rfl flow (List.mem_of_mem_take (mem_of_findFlow hflow).1) herror rfl
      · obtain ⟨newest, hnewest⟩ := exists_latestFinished hother hran hfinished
        obtain ⟨table, -, hmem⟩ := hreused 0 spec hspec newest hnewest
        exact absurd (hentry.symm.trans (extractSpec_of_mem hmem rfl rfl)) (by simp)
  · intro hdecides
    have hfinished : ∀ spec ∈ top10ArtifactsFor velo.system, ∀ limit ≤ max 50 rows, ∀ flow,
        velo.findLatestFinishedFlow spec.artifact limit = some flow →
          ∃ newest table, findFlowByArtifact (velo.listClientFlows limit) spec.artifact = some newest ∧
            newest.state = "FINISHED" ∧ velo.getTable newest.flowId spec.artifact rows = .ok table ∧
            newest = flow := by
      intro spec hspec limit hlimit flow hflow
      obtain ⟨hmem, hran, hdone⟩ := of_latestFinished hflow
      obtain ⟨newest, hnewest⟩ := exists_findFlow hmem hran
      have hlonger := findFlow_of_take (Int.toNat_le_toNat hlimit) hnewest
      have hmem' : flow ∈ velo.listClientFlows (max 50 rows) := List.take_subset_take_left _ (Int.toNat_le_toNat hlimit) hmem
      rcases hdecides spec hspec newest hlonger with ⟨hstate, table, htable⟩ | ⟨-, -, hnone⟩
      · refine ⟨newest, table, hnewest, hstate, htable, ?_⟩
        exact Option.some.inj ((find?_finished hnewest hstate).symm.trans hflow)
      · exact absurd hdone (hnone flow hmem' hran)
    refine ⟨fun now spec hspec flow hflow => ?_, fun spec hspec hsome out desk allowlist => ?_,
      fun now entry hentry hrunning flow hflow herror hid => ?_⟩
    · obtain ⟨newest, table, hnewest, hdone, htable, rfl⟩ := hfinished spec hspec _ (le_refl _) flow hflow
      refine ⟨table, htable, List.mem_map.mpr ⟨spec, hspec, ?_⟩⟩
      rw [extractSpec, hnewest]
      exact (if_pos hdone).trans (tableEntry_of_ok htable)
    · obtain ⟨flow, hflow⟩ := Option.isSome_iff_exists.mp hsome
      obtain ⟨newest, table, hnewest, hdone, -, -⟩ := hfinished spec hspec 50 (le_max_left 50 rows) flow hflow
      obtain ⟨new, hcalls, hnew⟩ := collected_unfinished out velo.clientId allowlist (velo.listClientFlows 50)
        (top10ArtifactsFor velo.system) desk
      exact ⟨new, hcalls, fun call hcall hname => hnew call hcall newest (hname ▸ hnewest) hdone⟩
    · obtain ⟨spec, hspec, rfl⟩ := List.mem_map.mp hentry
      obtain ⟨newest, hnewest, hstate, hflowId⟩ := of_running hrunning
      have hmem := List.mem_of_mem_take (mem_of_findFlow hnewest).1
      have hsame : newest = flow := List.inj_on_of_nodup_map velo.nodup hmem hflow (hflowId.symm.trans hid)
      rcases hdecides spec hspec newest hnewest with ⟨hdone, -⟩ | ⟨-, hfailed, -⟩
      · exact hstate hdone
      · exact hfailed (hsame ▸ herror)

end Reused

end Extract

/-- A client whose processes were listed, and then could not be listed again. -/
def failedAgain : ClientView where
  clientId := "C.1"
  system := none
  flows := [⟨["Windows.System.Pslist"], "ERROR", some "F.2"⟩, ⟨["Windows.System.Pslist"], "FINISHED", some "F.1"⟩]
  nodup := by decide
  getTable := fun _ _ _ => .ok []
  collectAndWait := fun _ => .ok "F.3"

/-- What the list of processes is called in the Top 10. -/
def pslist : Top10Spec := ⟨"Windows.System.Pslist", "Pslist — Top 10 tiến trình hệ thống"⟩

theorem failed_hides_finished : ¬∀ (velo : ClientView) (collectMissing : Bool) (topN rows : ℤ),
    FinishedReused ⟨fun _ => "", id⟩ velo collectMissing topN rows := by
  intro h
  have hwindows : top10ArtifactsFor failedAgain.system = top10ArtifactsWindows := by
    have hstrip : strip (failedAgain.system.getD "") = "" := by decide
    have hname : (strip (failedAgain.system.getD "")).toLower = "" := by
      change String.map Char.toLower (strip (failedAgain.system.getD "")) = ""
      rw [hstrip]
      simp
    rw [top10ArtifactsFor, hname]
    rfl
  have hspec : pslist ∈ top10ArtifactsFor failedAgain.system := by
    rw [hwindows]
    exact List.mem_cons_of_mem _ (List.mem_cons_of_mem _ List.mem_cons_self)
  obtain ⟨table, -, hmem⟩ := (h failedAgain false 10 100).reused 0 pslist hspec
    ⟨["Windows.System.Pslist"], "FINISHED", some "F.1"⟩ rfl
  have hshown : Top10Source.running = .reused :=
    congrArg Top10Events.source (@extractSpec_of_mem _ _ _ _ _ pslist _ _ hmem rfl rfl)
  cases hshown

end AssetInventory.Velociraptor

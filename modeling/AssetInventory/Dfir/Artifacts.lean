import AssetInventory.Dfir.Batch

/-!
# The collected results

A poll stores the results of a finished flow in the loaded `raw_artifacts`, in place.  The column is
plain JSON, so the session sees no change and writes none, and the next tick loads the row as it was
when the flows were started.

* `tickRow`, `afterTicks`: the ticks of one row, each in a session of its own.
* `fetched`: the results that the polls of these ticks fetch.
* `Triggered`: the invariant.  Once the flows are started, no tick changes the stored ones.
* `startErrors`: the artifacts data of flows without results, with `bundle_of_started`.
* `results_survive_iff`: the data that is analyzed contains the fetched results exactly if they are
  what the errors of the start put there anyway.
* `results_lost`: one flow, fetched by one poll and analyzed by the next tick.
-/

namespace AssetInventory

open PyJson PyTime Orm DfirInvestigation

/-! ## Ticks -/

/-- One tick, as far as one row meets it. -/
structure Tick where
  now : Time
  env : LocalEnv

/-- What a tick leaves of a stored row: it loads it, processes it and writes back its flushes. -/
def tickRow (cfg : Settings) (id : InvId) (inv : DfirInvestigation) (t : Tick) :
    DfirInvestigation :=
  (localBoundary t.env.later (processOne cfg id t.now t.env inv).1).flushed.foldl
    (fun r q => writeBack q.1 q.2 r) inv

/-- What a run of ticks leaves. -/
def afterTicks (cfg : Settings) (id : InvId) (inv : DfirInvestigation) (ts : List Tick) :
    DfirInvestigation := ts.foldl (tickRow cfg id) inv

/-- The results that polling one flow fetches. -/
def fetchedFlow (answer : FlowAnswer) (f : Flow) : Option (String × Json) :=
  if f.skipped then none
  else
    match answer with
    | .finished _ (.ok results) => some (f.artifact, results)
    | _ => none

/-- The results that a tick fetches for a row. -/
def fetchedBy (cfg : Settings) (inv : DfirInvestigation) (t : Tick) : List (String × Json) :=
  if (inv.status = .running ∨ inv.status = .collecting) ∧
      olderThan inv.startedAt cfg.llmCollectMaxWaitSeconds t.now = false ∧
      t.env.poll.clientError = none then
    ((inv.rawArtifacts.getD []).mapIdx fun n f => fetchedFlow (t.env.poll.poll n) f).reduceOption
  else []

/-- The results that a run of ticks fetches. -/
def fetched (cfg : Settings) (id : InvId) : DfirInvestigation → List Tick → List (String × Json)
  | _, [] => []
  | inv, t :: ts => fetchedBy cfg inv t ++ fetched cfg id (tickRow cfg id inv t) ts

/-! ## The property -/

/-- The rows that `_state_analyze` makes of the results of a flow. -/
def rowsOf : Json → Option (List Json)
  | .arr rows => some rows
  | .obj columns => (rowsOfColumns columns).toOption
  | _ => none

/-- **The fetched results survive**: the data has exactly them under their artifact. -/
def Survive (results : List (String × Json)) (data : List (String × List Json)) : Prop :=
  ∀ x ∈ results, ∃ rows, rowsOf x.2 = some rows ∧ data.lookup x.1 = some rows

/-- The row that an error of the start puts into the data. -/
def errorRow (error : String) : Json := .obj [("error", .str error)]

/-- The last error with which a flow of the artifact failed to start. -/
def startError (artifact : String) (flows : List Flow) : Option String :=
  flows.foldl (fun e f => if f.artifact = artifact ∧ truthy f.error = true then f.error else e) none

/-! ## The data of flows without results -/

theorem lookup_cons_eq_ite {α : Type} (k k' : String) (v : α) (d : List (String × α)) :
    ((k', v) :: d).lookup k = if k = k' then some v else d.lookup k := by
  rw [List.lookup_cons]
  by_cases hk : k = k'
  · rw [if_pos hk, beq_iff_eq.mpr hk]
  · rw [if_neg hk, beq_eq_false_iff_ne.mpr hk]

theorem lookup_replace {α : Type} (d : List (String × α)) (key k : String) (v : α) :
    (d.map fun p => if p.1 = key then (key, v) else p).lookup k =
      if k = key ∧ (d.any fun p => decide (p.1 = key)) = true then some v else d.lookup k := by
  induction d with
  | nil => simp
  | cons p d ih =>
    obtain ⟨k', v'⟩ := p
    rw [List.map_cons, List.any_cons, lookup_cons_eq_ite]
    by_cases hkey : k' = key
    · subst hkey
      rw [if_pos rfl, lookup_cons_eq_ite, ih]
      by_cases hk : k = k'
      · simp [hk]
      · simp [hk]
    · rw [if_neg hkey, lookup_cons_eq_ite, ih]
      by_cases hk : k = k'
      · subst hk
        simp [hkey]
      · rw [if_neg hk, if_neg hk, decide_eq_false hkey, Bool.false_or]

theorem lookup_dictSet {α : Type} (d : List (String × α)) (key k : String) (v : α) :
    (dictSet d key v).lookup k = if k = key then some v else d.lookup k := by
  unfold dictSet
  split
  · rename_i hany
    rw [lookup_replace, hany]
    simp
  · rename_i hany
    rw [List.lookup_append, lookup_cons_eq_ite]
    by_cases hk : k = key
    · subst hk
      have hnone : d.lookup k = none := by
        rw [List.lookup_eq_none_iff]
        intro p hp
        have hne : p.1 ≠ k := fun heq =>
          hany (List.any_eq_true.mpr ⟨p, hp, decide_eq_true heq⟩)
        exact bne_iff_ne.mpr (Ne.symm hne)
      rw [hnone, if_pos rfl, if_pos rfl, Option.none_or]
    · rw [if_neg hk, if_neg hk, List.lookup_nil, Option.or_none]

/-- The flows as they are triggered. -/
def Bare (flows : List Flow) : Prop := ∀ f ∈ flows, f.results = none

theorem bare_startFlows (env : StartEnv) (artifacts : List String) :
    Bare (startFlows env artifacts) := by
  intro f hf
  rw [startFlows, List.mem_mapIdx] at hf
  obtain ⟨n, hn, rfl⟩ := hf
  cases env.collect n with
  | ok flowId => rfl
  | error e => rfl

/-- **The data of flows without results** has the errors of the start, and nothing else. -/
theorem bundle_of_bare {flows : List Flow} (h : Bare flows) : ∃ data, bundle flows = .ok data ∧
      ∀ artifact, data.lookup artifact = (startError artifact flows).map fun e => [errorRow e] := by
  -- the loop, from any data that agrees with the errors so far
  have hloop : ∀ (data : List (String × List Json)) (errors : String → Option String),
      (∀ artifact, data.lookup artifact = (errors artifact).map fun e => [errorRow e]) →
      ∃ data', flows.foldlM bundleFlow data = .ok data' ∧ ∀ artifact, data'.lookup artifact =
        (flows.foldl (fun e f => if f.artifact = artifact ∧ truthy f.error = true then f.error
          else e) (errors artifact)).map fun e => [errorRow e] := by
    induction flows with
    | nil => exact fun data errors hdata => ⟨data, rfl, hdata⟩
    | cons f flows ih =>
      intro data errors hdata
      have hf : f.results = none := h f List.mem_cons_self
      have htail : Bare flows := fun g hg => h g (List.mem_cons_of_mem _ hg)
      by_cases herror : truthy f.error = true
      · obtain ⟨e, he, -⟩ := truthy_eq_true.mp herror
        have hbundle : bundleFlow data f = .ok (dictSet data f.artifact [errorRow e]) := by
          rw [bundleFlow, hf]
          dsimp only
          rw [if_pos herror, he]
          rfl
        obtain ⟨data', hdata', hlookup⟩ := ih htail (dictSet data f.artifact [errorRow e])
          (fun artifact => if f.artifact = artifact then some e else errors artifact)
          fun artifact => by
            rw [lookup_dictSet]
            by_cases hart : artifact = f.artifact
            · subst hart
              simp
            · rw [if_neg hart, if_neg (Ne.symm hart)]
              exact hdata artifact
        refine ⟨data', ?_, fun artifact => ?_⟩
        · rw [List.foldlM_cons, hbundle]
          exact hdata'
        · rw [hlookup, List.foldl_cons, he]
          simp only [he ▸ herror, and_true]
      · have hbundle : bundleFlow data f = .ok data := by simp [bundleFlow, hf, herror]
        obtain ⟨data', hdata', hlookup⟩ := ih htail data errors hdata
        refine ⟨data', ?_, fun artifact => ?_⟩
        · rw [List.foldlM_cons, hbundle]
          exact hdata'
        · rw [hlookup, List.foldl_cons, if_neg fun hand => herror hand.2]
  exact hloop [] (fun _ => none) fun _ => rfl

/-! ## What the ticks write -/

variable {l : List (DfirInvestigation × DfirInvestigation)}

theorem rawArtifacts_foldl_writeBack
    (h : AllFlushes (fun b c => c.rawArtifacts = b.rawArtifacts) l) (r : DfirInvestigation) :
    (l.foldl (fun r q => writeBack q.1 q.2 r) r).rawArtifacts = r.rawArtifacts := by
  induction l generalizing r with
  | nil => rfl
  | cons q l ih =>
    rw [List.foldl_cons, ih fun q' hq' => h q' (List.mem_cons_of_mem _ hq')]
    have hq : q.2.rawArtifacts = q.1.rawArtifacts := h q List.mem_cons_self
    rw [DfirInvestigation.writeBack, hq, pick_same]

theorem statePollCollect_keeps (cfg : Settings) (now : Time) (env : PollEnv)
    (inv : DfirInvestigation) : (statePollCollect cfg now env inv).session.Keeps rawArtifacts := by
  have hload := Session.Keeps.load rawArtifacts inv
  have hpolled : ∀ flows : Option (List Flow), (((Session.load inv).mutate fun r =>
      { r with rawArtifacts := flows }).commit).Keeps rawArtifacts :=
    fun flows => (hload.mutate fun _ _ _ => rfl).commit
  unfold statePollCollect
  dsimp only
  split
  · exact (hload.set (by intro _; rfl)).commit
  · split
    · exact (hload.set (by intro _; rfl)).commit
    · cases env.clientError with
      | some e => exact (hload.set (by intro _; rfl)).commit
      | none =>
        dsimp only
        split
        · split
          · exact ((hpolled _).set (by intro _; rfl)).commit
          · exact ((hpolled _).set (by intro _; rfl)).commit
        · exact hpolled _

theorem stateAnalyze_keeps (now : Time) (env : AnalyzeEnv) (inv : DfirInvestigation) :
    (stateAnalyze now env inv).1.session.Keeps rawArtifacts := by
  have hload := Session.Keeps.load rawArtifacts inv
  have hmodel : ∀ provider model : Option String, (((Session.load inv).set fun r =>
      { r with llmProvider := provider, llmModel := model }).commit).Keeps rawArtifacts :=
    fun _ _ => (hload.set (by intro _; rfl)).commit
  unfold stateAnalyze
  dsimp only
  split
  · exact hload
  · cases env.config with
    | none => exact (hload.set (by intro _; rfl)).commit
    | some config =>
      dsimp only
      cases bundle (inv.rawArtifacts.getD []) with
      | error e => exact hload
      | ok data =>
        dsimp only
        cases env.llm with
        | ok resp => exact ((hmodel _ _).set (by intro _; rfl)).commit
        | llmError message => exact ((hmodel _ _).set (by intro _; rfl)).commit
        | raised e => exact hmodel _ _

variable {inv : DfirInvestigation}

theorem processOne_keeps (cfg : Settings) (id : InvId) (now : Time) (env : LocalEnv)
    (horch : inv.externalOrchestrator ≠ some .deepagent)
    (hinv : inv.status ≠ .pending) :
    (processOne cfg id now env inv).1.session.Keeps rawArtifacts := by
  unfold processOne
  rw [if_neg horch]
  cases hs : inv.status with
  | pending => exact absurd hs hinv
  | running => exact statePollCollect_keeps cfg now env.poll inv
  | collecting => exact statePollCollect_keeps cfg now env.poll inv
  | analyzing => exact stateAnalyze_keeps now env.analyze inv
  | completed => exact Session.Keeps.load _ inv
  | failed => exact Session.Keeps.load _ inv

theorem localBoundary_keeps (later : Time) {o : Outcome PyExc} (h : o.session.Keeps rawArtifacts) :
    (localBoundary later o).Keeps rawArtifacts := by
  unfold localBoundary
  cases o.raised with
  | none => exact h
  | some e => exact (h.set (by intro _; rfl)).commit

/-! ## The invariant -/

/-- A row whose flows have been started. -/
structure Triggered (flows : List Flow) (inv : DfirInvestigation) : Prop where
  orchestrator : inv.externalOrchestrator = none
  status : inv.status ≠ .pending
  flows : inv.rawArtifacts = some flows

theorem status_ne_pending_foldl_writeBack
    (h : AllFlushes LocalWrite l) {r : DfirInvestigation} (hr : r.status ≠ .pending) :
    (l.foldl (fun r q => writeBack q.1 q.2 r) r).status ≠ .pending := by
  induction l generalizing r with
  | nil => exact hr
  | cons q l ih =>
    refine ih (fun q' hq' => h q' (List.mem_cons_of_mem _ hq')) ?_
    rw [status_writeBack]
    rcases pick_cases q.1.status q.2.status r.status with ⟨-, hpick⟩ | ⟨hne, hpick⟩
    · rw [hpick]
      exact hr
    · rw [hpick]
      intro hp
      exact hne (hp.trans ((h q List.mem_cons_self).pending hp).symm)

theorem kept_foldl_writeBack (h : AllFlushes LocalWrite l) (r : DfirInvestigation) :
    Kept r (l.foldl (fun r q => writeBack q.1 q.2 r) r) := by
  induction l generalizing r with
  | nil => exact Kept.refl r
  | cons q l ih =>
    exact ((h q List.mem_cons_self).kept.writeBack r).trans
      (ih (fun q' hq' => h q' (List.mem_cons_of_mem _ hq')) _)

/-- **A tick does not change the stored flows** once they are started. -/
theorem Triggered.tickRow {flows : List Flow} (h : Triggered flows inv)
    (cfg : Settings) (id : InvId) (t : Tick) : Triggered flows (tickRow cfg id inv t) := by
  have horch : inv.externalOrchestrator ≠ some .deepagent := by rw [h.orchestrator]; simp
  have hok := localBoundary_ok t.env.later (processOne_local cfg id t.now t.env horch)
  have hkeeps := localBoundary_keeps t.env.later (processOne_keeps cfg id t.now t.env horch h.status)
  refine ⟨?_, status_ne_pending_foldl_writeBack hok.all h.status, ?_⟩
  · exact (kept_foldl_writeBack hok.all inv).externalOrchestrator.trans h.orchestrator
  · exact (rawArtifacts_foldl_writeBack hkeeps.flushed inv).trans h.flows

theorem Triggered.afterTicks {flows : List Flow}
    (h : Triggered flows inv) (cfg : Settings) (id : InvId) (ts : List Tick) :
    Triggered flows (afterTicks cfg id inv ts) := by
  induction ts generalizing inv with
  | nil => exact h
  | cons t ts ih => exact ih (h.tickRow cfg id t)

theorem afterTicks_of_failed (cfg : Settings) (id : InvId)
    (horch : inv.externalOrchestrator = none) (hinv : inv.status = .failed) (ts : List Tick) :
    afterTicks cfg id inv ts = inv := by
  induction ts with
  | nil => rfl
  | cons t ts ih =>
    have htick : tickRow cfg id inv t = inv := by
      simp [tickRow, processOne, horch, hinv, localBoundary]
    change afterTicks cfg id (tickRow cfg id inv t) ts = inv
    rw [htick]
    exact ih

theorem tickRow_of_pending (cfg : Settings) (id : InvId) (t : Tick)
    (horch : inv.externalOrchestrator = none) (hinv : inv.status = .pending) :
    Triggered (startFlows t.env.start inv.artifacts) (tickRow cfg id inv t) ∨
      ((tickRow cfg id inv t).externalOrchestrator = none ∧
        (tickRow cfg id inv t).status = .failed) := by
  have hprocess : (processOne cfg id t.now t.env inv).1 = stateStart t.now t.env.start inv := by
    simp [processOne, horch, hinv]
  unfold tickRow
  rw [hprocess]
  unfold stateStart
  cases t.env.start.clientError with
  | some e =>
    refine Or.inr ?_
    simp [localBoundary, Outcome.raise, Session.commit, Session.set, Session.load, workerFail,
      horch]
  | none =>
    refine Or.inl ⟨?_, ?_, ?_⟩
    all_goals simp [localBoundary, Outcome.ret, Session.commit, Session.set, Session.load, horch]

/-- **When the fetched results survive.**  A row that goes through the local pipeline is analyzed
with the flows as they were started: the data has the fetched results exactly if each of them is the
row that an error of the start of a flow of the same artifact puts there. -/
theorem results_survive_iff (cfg : Settings) (id : InvId) {inv : DfirInvestigation} (t : Tick)
    (ts : List Tick) (horch : inv.externalOrchestrator = none) (hpending : inv.status = .pending)
    (hana : (afterTicks cfg id inv (t :: ts)).status = .analyzing) :
    ∃ data, bundle ((afterTicks cfg id inv (t :: ts)).rawArtifacts.getD []) = .ok data ∧
      (Survive (fetched cfg id inv (t :: ts)) data ↔ ∀ x ∈ fetched cfg id inv (t :: ts), ∃ e,
          startError x.1 (startFlows t.env.start inv.artifacts) = some e ∧
            rowsOf x.2 = some [errorRow e]) := by
  have htriggered : Triggered (startFlows t.env.start inv.artifacts)
      (afterTicks cfg id inv (t :: ts)) := by
    rcases tickRow_of_pending cfg id t horch hpending with h | ⟨horch', hfailed⟩
    · exact h.afterTicks cfg id ts
    · have hstay := afterTicks_of_failed cfg id horch' hfailed ts
      change afterTicks cfg id inv (t :: ts) = _ at hstay
      rw [hstay, hfailed] at hana
      cases hana
  obtain ⟨data, hdata, hlookup⟩ := bundle_of_bare (bare_startFlows t.env.start inv.artifacts)
  refine ⟨data, ?_, ?_⟩
  · rw [htriggered.flows]
    exact hdata
  · constructor
    · intro hsurvive x hx
      obtain ⟨rows, hrows, hdata⟩ := hsurvive x hx
      rw [hlookup, Option.map_eq_some_iff] at hdata
      obtain ⟨e, he, hone⟩ := hdata
      exact ⟨e, he, hone ▸ hrows⟩
    · intro herror x hx
      obtain ⟨e, he, hrows⟩ := herror x hx
      refine ⟨[errorRow e], hrows, ?_⟩
      rw [hlookup, he]
      rfl

/-! ## A row whose results are lost -/

/-- A tick that can start every flow. -/
def startAll : Tick := ⟨0, { silentEnv with start := ⟨none, fun _ => .ok "F.1", 0⟩ }⟩

/-- A tick in which every flow has finished with one row. -/
def pollAll : Tick :=
  ⟨1, { silentEnv with
    poll := ⟨none, fun _ => .finished none (.ok (.arr [.obj [("Pid", .num 4)]])), 1⟩ }⟩

/-- An investigation of the local LLM, with one artifact. -/
def localRow : DfirInvestigation :=
  newInvestigation (sampleSettings 1) 0 (some "C.1") ⟨"machine-1", none, none, "admin", none⟩ none

/-- **The results are lost.**  The flow is started, its results are fetched, and the next tick
analyzes the row without them. -/
theorem results_lost :
    ¬ ∀ (inv : DfirInvestigation) (ts : List Tick) (data : List (String × List Json)),
      inv.externalOrchestrator = none → inv.status = .pending →
      (afterTicks (sampleSettings 1) "1" inv ts).status = .analyzing →
      bundle ((afterTicks (sampleSettings 1) "1" inv ts).rawArtifacts.getD []) = .ok data →
      Survive (fetched (sampleSettings 1) "1" inv ts) data := by
  intro h
  have hfetched : fetched (sampleSettings 1) "1" localRow [startAll, pollAll] =
      [("Windows.System.Pslist", .arr [.obj [("Pid", .num 4)]])] := by decide +kernel
  have hsurvive := h localRow [startAll, pollAll] [] rfl rfl (by decide +kernel) (by decide +kernel)
  rw [hfetched] at hsurvive
  obtain ⟨rows, -, hlookup⟩ := hsurvive _ List.mem_cons_self
  cases hlookup

/-- A row whose flow could not be started is analyzed with the error, and nothing was fetched. -/
theorem results_survive_of_failed_start :
    ∃ data, bundle ((afterTicks (sampleSettings 1) "1" localRow
        [⟨0, silentEnv⟩, pollAll]).rawArtifacts.getD []) = .ok data ∧
      Survive (fetched (sampleSettings 1) "1" localRow [⟨0, silentEnv⟩, pollAll]) data := by
  obtain ⟨data, hdata, hiff⟩ := results_survive_iff (sampleSettings 1) "1"
    ⟨0, silentEnv⟩ [pollAll] (show localRow.externalOrchestrator = none from rfl) rfl
    (by decide +kernel)
  have hnone : fetched (sampleSettings 1) "1" localRow [⟨0, silentEnv⟩, pollAll] = [] := by
    decide +kernel
  refine ⟨data, hdata, hiff.mpr fun x hx => ?_⟩
  rw [hnone] at hx
  exact absurd hx List.not_mem_nil

end AssetInventory

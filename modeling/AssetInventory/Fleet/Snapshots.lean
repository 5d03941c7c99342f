import AssetInventory.Fleet.Routes

/-!
# The latest snapshot

A submission is compared with the latest snapshot.  The default of the column that orders the snapshots is
computed once, when the class is defined, so all snapshots that one process stores are equally late, and
the query may return any of them.

* `Tracks`: what is expected of a sequence of submissions.
* `Separated`: the condition on the submissions, that the latest rows tell each from its predecessor.
* `tracks_iff`: the expectation is met, however the query chooses, exactly when the condition is.
* `older_configuration_lost`: a machine that returns to an earlier configuration.
-/

namespace AssetInventory.Fleet

open PyJson PyTime Orm RowStore ReadCommitted Server

variable (V : Inventorying) (machineId : Uuid)

/-- The configuration of a submission. -/
def Inventorying.configured (body : InventoryRequest) : Configuration :=
  configurationOf V.normalize body.columns body.isVm

/-- A submission, and what it is answered. -/
abbrev Submission := InventoryRequest × (ℕ → Env)

/-- A submission of the machine is served. -/
def submit (s : AtRest Data) (x : Submission) : AtRest Data :=
  (serveAlone (submitInventory V (some machineId)) s x.1 x.2).2

/-- Submissions of the machine are accepted. -/
def Accepts (data : Data) : Prop :=
  ∃ m, data.machines.get machineId = some m ∧ m.status ≠ .decommissioned

/-- `machine_current` carries the configuration and the hash of a submission. -/
def Reflects (data : Data) (body : InventoryRequest) : Prop :=
  ∃ row, data.current.get machineId = some row ∧ row.configHash = some (V.hashOf body) ∧
    row.configuration = V.configured body

/-- A new snapshot is stored. -/
def SnapshotStored (before after : Data) : Prop :=
  ∃ spec, specsOf after machineId = specsOf before machineId ++ [spec]

/-- **What is expected of a sequence of submissions**, the first of them after `prev`: after each of them
the current configuration is that of the submission, and a snapshot is stored exactly when its hash differs
from the hash of the one before. -/
def Tracks : Option InventoryRequest → AtRest Data → List Submission → Prop
  | _, _, [] => True
  | prev, s, x :: xs =>
    let t := submit V machineId s x
    Reflects V machineId t.data x.1 ∧
      (SnapshotStored machineId s.data t.data ↔ prev.map V.hashOf ≠ some (V.hashOf x.1)) ∧
      Tracks (some x.1) t xs

/-- **The condition on the submissions**, with the snapshots that are stored and the submission before: if
one brings the hash of its predecessor, then all the latest rows have this hash, and the configuration is
the same; otherwise none of the latest rows has its hash. -/
def Separated : List MachineSpec → Option InventoryRequest → List InventoryRequest → Prop
  | _, _, [] => True
  | rows, prev, body :: bodies =>
    let hashes := (latestOf rows).map MachineSpec.configHash
    if prev.map V.hashOf = some (V.hashOf body) then
      (hashes ≠ [] ∧ ∀ hash ∈ hashes, hash = some (V.hashOf body)) ∧
        prev.map V.configured = some (V.configured body) ∧ Separated rows (some body) bodies
    else
      some (V.hashOf body) ∉ hashes ∧
        Separated (rows ++ [V.snapshot machineId body]) (some body) bodies

/-! ## One submission -/

section Submit

theorem alone_insertSoftware (time : Time) (entries : List (List (String × Json)))
    (x : Alone Data DataWrite Env) : (insertSoftware machineId time entries).alone x =
      ((), { x with pending := x.pending ++ entries.map fun e => .newSoftware ⟨machineId, time, e⟩ }) := by
  induction entries generalizing x with
  | nil =>
    rw [List.map_nil, List.append_nil]
    rfl
  | cons entry entries ih =>
    rw [insertSoftware, alone_insert, ih]
    simp

theorem alone_flushMachine (id : Uuid) (base cur : Machine) (x : Alone Data DataWrite Env) :
    (flushMachine id base cur).alone x =
      ((), { x with pending := x.pending ++ if base = cur then [] else [.machine id base cur] }) := by
  rw [flushMachine]
  split
  · rw [List.append_nil]
    rfl
  · rfl

/-- The writes of a submission that is stored. -/
def submissionWrites (machine : Machine) (body : InventoryRequest) (time : Time) : List DataWrite :=
  (if machine = machine.submitted body then [] else [.machine machineId machine (machine.submitted body)]) ++
    [.newSpec (V.snapshot machineId body),
      .current machineId ⟨time, some (V.hashOf body), V.configured body⟩, .clearSoftware machineId] ++
    (V.normalize.softwareRows body.columns.installedSoftware).map
      fun e => .newSoftware ⟨machineId, time, e⟩

/-- **What a submission does**: nothing if the row that the query returns has its hash. -/
theorem data_submit {s : AtRest Data} {machine : Machine}
    (hmachine : s.data.machines.get machineId = some machine) (hstatus : machine.status ≠ .decommissioned)
    (x : Submission) : (submit V machineId s x).data =
      if (latestSpec s.data machineId (x.2 0).first).any
          fun spec => decide (spec.configHash = some (V.hashOf x.1)) then s.data
      else applyAll (submissionWrites V machineId machine x.1 (x.2 1).now) s.data := by
  change ((submitInventory V (some machineId) x.1).alone ⟨s.data, [], s.drawn, x.2⟩).2.data = _
  have hview : (⟨s.data, [], s.drawn, x.2⟩ : Alone Data DataWrite Env).view = s.data := rfl
  rw [submitInventory, alone_select, hview, hmachine]
  dsimp only
  rw [if_neg hstatus, alone_answer, alone_select]
  change (Prog.alone (if (latestSpec s.data machineId (x.2 0).first).any _ then _ else _) _).2.data = _
  split
  · rfl
  · rw [alone_bind, alone_flushMachine, alone_insert, alone_bind, upsertCurrentAndSoftware, timeOr, now,
      alone_answer, alone_update, alone_insert, alone_insertSoftware, alone_publish]
    rw [alone_pure, submissionWrites]
    simp [Alone.view, Inventorying.configured]

variable {V machineId} {machine : Machine} {body : InventoryRequest} {time : Time} {d : Data}

theorem applyAll_newSoftware (machineId : Uuid) (time : Time) (entries : List (List (String × Json))) :
    let d' := applyAll (entries.map fun e => DataWrite.newSoftware ⟨machineId, time, e⟩) d
    d'.specs = d.specs ∧ d'.current = d.current ∧ d'.machines = d.machines := by
  refine applyAll_invariant (P := fun d' : Data => d'.specs = d.specs ∧ d'.current = d.current ∧
    d'.machines = d.machines) (fun w hw d' hd => ?_) ⟨rfl, rfl, rfl⟩
  obtain ⟨e, -, rfl⟩ := List.mem_map.mp hw
  exact hd

theorem applyAll_submissionWrites :
    let d' := applyAll (submissionWrites V machineId machine body time) d
    let row : MachineCurrent := ⟨time, some (V.hashOf body), V.configured body⟩
    d'.specs = d.specs ++ [V.snapshot machineId body] ∧
      d'.current = (d.current.insert machineId row).modify machineId (fun _ => row) ∧
      d'.machines = if machine = machine.submitted body then d.machines
        else d.machines.modify machineId (Machine.writeBack machine (machine.submitted body)) := by
  rw [submissionWrites, applyAll_append]
  obtain ⟨hspecs, hcurrent, hmachines⟩ := applyAll_newSoftware machineId time
    (V.normalize.softwareRows body.columns.installedSoftware)
  dsimp only
  rw [hspecs, hcurrent, hmachines]
  split
  · exact ⟨rfl, rfl, rfl⟩
  · exact ⟨rfl, rfl, rfl⟩

theorem specsOf_append {d' : Data} {spec : MachineSpec} (h : d'.specs = d.specs ++ [spec]) (machineId : Uuid) :
    specsOf d' machineId = specsOf d machineId ++ if spec.machineId = machineId then [spec] else [] := by
  rw [specsOf, h, List.filter_append, specsOf]
  congr 1
  split_ifs with hid
  · exact List.filter_cons_of_pos (decide_eq_true hid)
  · exact List.filter_cons_of_neg fun hdecide => hid (of_decide_eq_true hdecide)

theorem specsOf_submissionWrites :
    specsOf (applyAll (submissionWrites V machineId machine body time) d) machineId =
      specsOf d machineId ++ [V.snapshot machineId body] := by
  rw [specsOf_append applyAll_submissionWrites.1]
  exact congrArg (specsOf d machineId ++ ·) (if_pos rfl)

theorem current_submissionWrites :
    (applyAll (submissionWrites V machineId machine body time) d).current.get machineId =
      some ⟨time, some (V.hashOf body), V.configured body⟩ := by
  rw [applyAll_submissionWrites.2.1, Table.get_modify_insert_self]

theorem reflects_submissionWrites :
    Reflects V machineId (applyAll (submissionWrites V machineId machine body time) d) body :=
  ⟨_, current_submissionWrites, rfl, rfl⟩

theorem accepts_submissionWrites (hmachine : d.machines.get machineId = some machine)
    (hstatus : machine.status ≠ .decommissioned) :
    Accepts machineId (applyAll (submissionWrites V machineId machine body time) d) := by
  rw [Accepts, applyAll_submissionWrites.2.2]
  split
  · exact ⟨machine, hmachine, hstatus⟩
  · rw [Table.get_modify_self, hmachine]
    refine ⟨_, rfl, ?_⟩
    change pick machine.status machine.status machine.status ≠ _
    rwa [pick_same]

end Submit

/-! ## Sequences -/

section Sequences

variable {V machineId} {s : AtRest Data}

theorem submit_of_any (haccepts : Accepts machineId s.data) {x : Submission}
    {spec : MachineSpec} (hlatest : latestSpec s.data machineId (x.2 0).first = some spec)
    (hhash : spec.configHash = some (V.hashOf x.1)) : (submit V machineId s x).data = s.data := by
  obtain ⟨m, hm, hstatus⟩ := haccepts
  rw [data_submit V machineId hm hstatus, hlatest, Option.any_some, decide_eq_true hhash, if_pos rfl]

theorem submit_of_not_any (haccepts : Accepts machineId s.data) {x : Submission}
    (hlatest : ∀ spec ∈ latestSpec s.data machineId (x.2 0).first,
      spec.configHash ≠ some (V.hashOf x.1)) : let t := submit V machineId s x
    specsOf t.data machineId = specsOf s.data machineId ++ [V.snapshot machineId x.1] ∧
      Reflects V machineId t.data x.1 ∧ Accepts machineId t.data := by
  obtain ⟨m, hm, hstatus⟩ := haccepts
  have hany : ¬ (latestSpec s.data machineId (x.2 0).first).any
      (fun spec => decide (spec.configHash = some (V.hashOf x.1))) = true := by
    intro h
    obtain ⟨spec, hspec, hhash⟩ := Option.any_eq_true _ _ |>.mp h
    exact hlatest spec hspec (of_decide_eq_true hhash)
  dsimp only
  rw [data_submit V machineId hm hstatus, if_neg hany]
  exact ⟨specsOf_submissionWrites, reflects_submissionWrites, accepts_submissionWrites hm hstatus⟩

theorem not_snapshotStored_self (data : Data) : ¬ SnapshotStored machineId data data := by
  rintro ⟨spec, h⟩
  have hlength := congrArg List.length h
  rw [List.length_append, List.length_singleton] at hlength
  omega

theorem mem_hashes {first : ℕ} {spec : MachineSpec}
    (h : latestSpec s.data machineId first = some spec) :
    spec.configHash ∈ (latestOf (specsOf s.data machineId)).map MachineSpec.configHash :=
  List.mem_map_of_mem (mem_of_oneOf h)

theorem exists_latestSpec {hash : Option String}
    (h : hash ∈ (latestOf (specsOf s.data machineId)).map MachineSpec.configHash) :
    ∃ first spec, latestSpec s.data machineId first = some spec ∧ spec.configHash = hash := by
  obtain ⟨spec, hspec, rfl⟩ := List.mem_map.mp h
  obtain ⟨first, hfirst⟩ := exists_oneOf hspec
  exact ⟨first, spec, hfirst, rfl⟩

/-- The expectation holds however the query chooses. -/
def AlwaysTracks (V : Inventorying) (machineId : Uuid) (prev : Option InventoryRequest)
    (s : AtRest Data) (bodies : List InventoryRequest) : Prop :=
  ∀ xs : List Submission, xs.map Prod.fst = bodies → Tracks V machineId prev s xs

/-- The world answers so that the query returns a certain row. -/
def firstAnswers (first : ℕ) : ℕ → Env := fun _ => ⟨0, fun _ => 0, first, none⟩

variable {body : InventoryRequest} {prev : Option InventoryRequest}

theorem alwaysTracks_cons {bodies : List InventoryRequest} :
    AlwaysTracks V machineId prev s (body :: bodies) ↔ ∀ answers,
      let t := submit V machineId s (body, answers)
      (Reflects V machineId t.data body ∧
        (SnapshotStored machineId s.data t.data ↔ prev.map V.hashOf ≠ some (V.hashOf body))) ∧
        AlwaysTracks V machineId (some body) t bodies := by
  constructor
  · intro h answers
    have hxs : ∀ xs : List Submission, xs.map Prod.fst = bodies →
        Tracks V machineId prev s ((body, answers) :: xs) := fun xs hxs =>
      h _ (by rw [List.map_cons, hxs])
    obtain ⟨hreflects, hstored, -⟩ := hxs (bodies.map fun b => (b, answers))
      (by simp [Function.comp_def])
    exact ⟨⟨hreflects, hstored⟩, fun xs h => (hxs xs h).2.2⟩
  · intro h xs hxs
    obtain ⟨x, ys, rfl, rfl, rfl⟩ := List.map_eq_cons_iff.mp hxs
    obtain ⟨⟨hreflects, hstored⟩, hrest⟩ := h x.2
    exact ⟨hreflects, hstored, hrest ys rfl⟩

theorem submit_of_forall (haccepts : Accepts machineId s.data)
    (hne : (latestOf (specsOf s.data machineId)).map MachineSpec.configHash ≠ [])
    (hall : ∀ hash ∈ (latestOf (specsOf s.data machineId)).map MachineSpec.configHash,
      hash = some (V.hashOf body)) (answers : ℕ → Env) :
    (submit V machineId s (body, answers)).data = s.data := by
  have hsome : ∃ spec, latestSpec s.data machineId (answers 0).first = some spec := by
    refine Option.ne_none_iff_exists'.mp fun hnone => hne ?_
    rw [oneOf_eq_none.mp hnone, List.map_nil]
  obtain ⟨spec, hspec⟩ := hsome
  exact submit_of_any haccepts hspec (hall _ (mem_hashes hspec))

/-- **A repeated hash**: the expectation of the submission itself. -/
theorem forall_repeated_iff (haccepts : Accepts machineId s.data)
    (hprev : ∀ p ∈ prev, Reflects V machineId s.data p)
    (hrepeated : prev.map V.hashOf = some (V.hashOf body)) :
    (∀ answers, let t := submit V machineId s (body, answers)
      Reflects V machineId t.data body ∧
        (SnapshotStored machineId s.data t.data ↔ prev.map V.hashOf ≠ some (V.hashOf body))) ↔
      ((latestOf (specsOf s.data machineId)).map MachineSpec.configHash ≠ [] ∧
        ∀ hash ∈ (latestOf (specsOf s.data machineId)).map MachineSpec.configHash,
          hash = some (V.hashOf body)) ∧
      prev.map V.configured = some (V.configured body) := by
  obtain ⟨p, rfl, hp⟩ := Option.map_eq_some_iff.mp hrepeated
  obtain ⟨row, hrow, hhash, hconfiguration⟩ := hprev p rfl
  constructor
  · intro h
    -- whichever row the query returns, it has the hash, or else a snapshot would be stored
    have hfound : ∀ first, ∃ spec, latestSpec s.data machineId first = some spec ∧
        spec.configHash = some (V.hashOf body) := by
      intro first
      by_contra hnone
      obtain ⟨hstored, -⟩ := submit_of_not_any haccepts (x := (body, firstAnswers first))
        fun spec hspec hhash => hnone ⟨spec, hspec, hhash⟩
      exact (h (firstAnswers first)).2.mp ⟨_, hstored⟩ hrepeated
    obtain ⟨spec, hspec, hspecHash⟩ := hfound 0
    refine ⟨⟨List.ne_nil_of_mem (mem_hashes hspec), fun hash hmem => ?_⟩, ?_⟩
    · obtain ⟨first, other, hother, rfl⟩ := exists_latestSpec hmem
      obtain ⟨spec', hspec', hhash'⟩ := hfound first
      rw [hother] at hspec'
      rw [Option.some.inj hspec', hhash']
    · obtain ⟨row', hrow', -, hconfiguration'⟩ := (h (firstAnswers 0)).1
      rw [submit_of_any haccepts hspec hspecHash, hrow] at hrow'
      rw [Option.map_some, ← hconfiguration, ← hconfiguration', Option.some.inj hrow']
  · rintro ⟨⟨hne, hall⟩, hsame⟩ answers
    dsimp only
    rw [submit_of_forall haccepts hne hall answers]
    refine ⟨⟨row, hrow, hhash.trans (congrArg some hp), ?_⟩, fun hstored => ?_, fun hne => ?_⟩
    · exact hconfiguration.trans (Option.some.inj hsame)
    · exact absurd hstored (not_snapshotStored_self s.data)
    · exact absurd hrepeated hne

/-- **Another hash**: the expectation of the submission itself. -/
theorem forall_changed_iff (haccepts : Accepts machineId s.data)
    (hchanged : prev.map V.hashOf ≠ some (V.hashOf body)) :
    (∀ answers, let t := submit V machineId s (body, answers)
      Reflects V machineId t.data body ∧
        (SnapshotStored machineId s.data t.data ↔ prev.map V.hashOf ≠ some (V.hashOf body))) ↔
      some (V.hashOf body) ∉ (latestOf (specsOf s.data machineId)).map MachineSpec.configHash := by
  constructor
  · intro h hmem
    obtain ⟨first, spec, hspec, hhash⟩ := exists_latestSpec hmem
    have hstored := (h (firstAnswers first)).2.mpr hchanged
    rw [submit_of_any haccepts (x := (body, firstAnswers first)) hspec hhash] at hstored
    exact not_snapshotStored_self s.data hstored
  · intro hnot answers
    obtain ⟨hstored, hreflects, -⟩ := submit_of_not_any haccepts (x := (body, answers))
      fun spec hspec hhash => hnot (hhash ▸ mem_hashes hspec)
    exact ⟨hreflects, fun _ => hchanged, fun _ => ⟨_, hstored⟩⟩

end Sequences

/-- **The latest snapshot**: for a machine whose submissions are accepted, the expectation is met however
the query chooses among rows that are equally late, exactly when the condition is. -/
theorem tracks_iff {s : AtRest Data} (haccepts : Accepts machineId s.data)
    {prev : Option InventoryRequest} (hprev : ∀ p ∈ prev, Reflects V machineId s.data p)
    (bodies : List InventoryRequest) :
    (∀ xs : List Submission, xs.map Prod.fst = bodies → Tracks V machineId prev s xs) ↔
      Separated V machineId (specsOf s.data machineId) prev bodies := by
  change AlwaysTracks V machineId prev s bodies ↔ _
  induction bodies generalizing s prev with
  | nil =>
    refine iff_of_true (fun xs hxs => ?_) trivial
    rw [List.map_eq_nil_iff.mp hxs]
    trivial
  | cons body bodies ih =>
    rw [alwaysTracks_cons, forall_and, Separated]
    by_cases hrepeated : prev.map V.hashOf = some (V.hashOf body)
    · rw [if_pos hrepeated, ← and_assoc, forall_repeated_iff haccepts hprev hrepeated]
      refine and_congr_right fun hcondition => ?_
      obtain ⟨p, rfl, hp⟩ := Option.map_eq_some_iff.mp hrepeated
      have hrest : ∀ answers, AlwaysTracks V machineId (some body)
          (submit V machineId s (body, answers)) bodies ↔
            Separated V machineId (specsOf s.data machineId) (some body) bodies := by
        intro answers
        have hdata := submit_of_forall haccepts hcondition.1.1 hcondition.1.2 answers
        have hreflects := ((forall_repeated_iff haccepts hprev hrepeated).mpr hcondition answers).1
        rw [ih (hdata ▸ haccepts) (by rintro _ ⟨⟩; exact hreflects), hdata]
      exact ⟨fun h => (hrest (firstAnswers 0)).mp (h _), fun h answers => (hrest answers).mpr h⟩
    · rw [if_neg hrepeated, forall_changed_iff haccepts hrepeated]
      refine and_congr_right fun hnot => ?_
      have hrest : ∀ answers, AlwaysTracks V machineId (some body)
          (submit V machineId s (body, answers)) bodies ↔
            Separated V machineId (specsOf s.data machineId ++ [V.snapshot machineId body]) (some body)
              bodies := by
        intro answers
        obtain ⟨hstored, hreflects, haccepts'⟩ := submit_of_not_any haccepts (x := (body, answers))
          fun spec hspec hhash => hnot (hhash ▸ mem_hashes hspec)
        rw [ih haccepts' (by rintro _ ⟨⟩; exact hreflects), hstored]
      exact ⟨fun h => (hrest (firstAnswers 0)).mp (h _), fun h answers => (hrest answers).mpr h⟩

/-! A machine that returns to an earlier configuration. -/

/-- Nothing is derived, and the class was defined at the epoch. -/
def exampleInventorying : Inventorying := ⟨exampleNormalizers, fun _ => "", 0⟩

/-- A submission that brings its hash. -/
def exampleSubmission (hash : String) : InventoryRequest where
  reported := ⟨none, none, none, none, none, none, none, none, none, none, none, none, none, none, none,
    none, none, none, none, none⟩
  isVm := none
  configHash := some hash

/-- One machine, and no snapshots. -/
def machineData : AtRest Data :=
  ⟨{ noData with machines := Table.empty.insert 0 (exampleMachine "4C4C4544") }, 0⟩

theorem accepts_machineData : Accepts 0 machineData.data := ⟨exampleMachine "4C4C4544", rfl, by decide⟩

/-- **An earlier configuration is not taken up again**: the query returns the snapshot of the first
submission, which is as late as that of the second one. -/
theorem older_configuration_lost : ¬ ∀ (V : Inventorying) (machineId : Uuid) (s : AtRest Data),
    Accepts machineId s.data → ∀ prev : Option InventoryRequest,
      (∀ p ∈ prev, Reflects V machineId s.data p) →
      ∀ xs : List Submission, Tracks V machineId prev s xs := by
  intro h
  obtain ⟨-, -, -, -, ⟨row, hrow, hhash, -⟩, -⟩ := h exampleInventorying 0 machineData
    accepts_machineData none (fun _ hp => by cases hp)
    [(exampleSubmission "a", firstAnswers 0), (exampleSubmission "b", firstAnswers 0),
      (exampleSubmission "a", firstAnswers 0)]
  have hcurrent : (((submit exampleInventorying 0 (submit exampleInventorying 0
      (submit exampleInventorying 0 machineData (exampleSubmission "a", firstAnswers 0))
      (exampleSubmission "b", firstAnswers 0)) (exampleSubmission "a", firstAnswers 0)).data.current.get 0).map
        MachineCurrent.configHash) = some (some "b") := by decide +kernel
  rw [hrow, Option.map_some, hhash] at hcurrent
  exact absurd hcurrent (by decide)

theorem tracks_exampleSubmissions : AlwaysTracks exampleInventorying 0 none machineData
    [exampleSubmission "a", exampleSubmission "a", exampleSubmission "b"] := by
  refine (tracks_iff exampleInventorying 0 accepts_machineData (fun _ hp => by cases hp) _).mpr ?_
  rw [Separated, if_neg (by decide)]
  refine ⟨by decide, ?_⟩
  rw [Separated, if_pos (Option.map_some ..)]
  refine ⟨⟨by decide, by decide⟩, rfl, ?_⟩
  rw [Separated, if_neg (by decide)]
  exact ⟨by decide, trivial⟩

end AssetInventory.Fleet

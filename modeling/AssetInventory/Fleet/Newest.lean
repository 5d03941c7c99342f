import AssetInventory.Fleet.Reimport
import AssetInventory.Fleet.Snapshots

/-!
# The newest snapshot

Submissions and imports overwrite the current configuration, and imports also the time when the machine was
last seen, whatever is stored.  An import is dated by its payload.  The snapshot of a submission is dated by
the time when the class was defined, and the row with the current configuration by the clock.

* `Newest`: the current configuration is that of the newest snapshot.
* `SeenLater`: the machine was last seen no earlier than before.
* `InOrder`: the condition on a request, that what it stores is dated no earlier than what is stored.
* `newest_of_runs`: in every run of such requests both hold.
* `older_import_taken`: an import that is older than the one before it.
-/

namespace AssetInventory.Fleet

open PyJson PyTime Orm RowStore ReadCommitted Server Interleaving

/-! ## What is expected -/

section Newest

variable (N : Normalizers) (dated : Prop) (machineId : Uuid)

/-- **The row shows the snapshot**, in all the columns that they have in common; the time of collection
counts as one of them if `dated` holds. -/
structure MachineCurrent.Shows (row : MachineCurrent) (spec : MachineSpec) : Prop where
  collectedAt : dated → row.collectedAt = spec.collectedAt
  configHash : row.configHash = spec.configHash
  configuration : row.configuration =
    { configurationOf N spec.reported row.configuration.isVm with os := spec.os }

/-- **The current configuration is that of the newest snapshot**, if there are snapshots. -/
structure Newest (data : Data) : Prop where
  absent : specsOf data machineId = [] → data.current.get machineId = none
  present : specsOf data machineId ≠ [] → ∃ spec ∈ latestOf (specsOf data machineId),
    ∃ row, data.current.get machineId = some row ∧ row.Shows N dated spec

/-- **The machine was last seen no earlier** than before. -/
def SeenLater (before after : Data) : Prop :=
  ∀ m, before.machines.get machineId = some m → ∃ m', after.machines.get machineId = some m' ∧
    ∀ seen ∈ m.lastSeenAt, ∃ seen' ∈ m'.lastSeenAt, seen ≤ seen'

variable {N dated machineId} {data data' data'' : Data}

theorem SeenLater.refl (data : Data) : SeenLater machineId data data :=
  fun m hm => ⟨m, hm, fun seen hseen => ⟨seen, hseen, le_refl seen⟩⟩

theorem SeenLater.trans (h : SeenLater machineId data data') (h' : SeenLater machineId data' data'') :
    SeenLater machineId data data'' := by
  intro m hm
  obtain ⟨m', hm', hseen⟩ := h m hm
  obtain ⟨m'', hm'', hseen'⟩ := h' m' hm'
  refine ⟨m'', hm'', fun seen hmem => ?_⟩
  obtain ⟨time, htime, hle⟩ := hseen seen hmem
  obtain ⟨time', htime', hle'⟩ := hseen' time htime
  exact ⟨time', htime', hle.trans hle'⟩

theorem Newest.congr (h : Newest N dated machineId data)
    (hspecs : specsOf data' machineId = specsOf data machineId)
    (hcurrent : data'.current.get machineId = data.current.get machineId) :
    Newest N dated machineId data' := by
  refine ⟨fun hnil => ?_, fun hne => ?_⟩
  · rw [hcurrent]
    exact h.absent (hspecs ▸ hnil)
  · rw [hcurrent, hspecs]
    exact h.present (hspecs ▸ hne)

theorem mem_latestOf_append {rows : List MachineSpec} {spec : MachineSpec}
    (h : ∀ r ∈ rows, r.collectedAt ≤ spec.collectedAt) : spec ∈ latestOf (rows ++ [spec]) := by
  refine List.mem_filter.mpr ⟨List.mem_append_right _ List.mem_cons_self, ?_⟩
  rw [List.all_append, Bool.and_eq_true, List.all_eq_true]
  exact ⟨fun r hr => decide_eq_true (h r hr), by simp⟩

/-- **A snapshot that is no earlier** than those that are stored, and is shown. -/
theorem newest_of_append {spec : MachineSpec} {row : MachineCurrent}
    (hspecs : specsOf data' machineId = specsOf data machineId ++ [spec])
    (horder : ∀ r ∈ specsOf data machineId, r.collectedAt ≤ spec.collectedAt)
    (hrow : data'.current.get machineId = some row) (hshows : row.Shows N dated spec) :
    Newest N dated machineId data' := by
  refine ⟨fun hnil => ?_, fun _ => ⟨spec, ?_, row, hrow, hshows⟩⟩
  · rw [hspecs] at hnil
    exact absurd hnil (List.append_ne_nil_of_right_ne_nil _ (List.cons_ne_nil _ _))
  · rw [hspecs]
    exact mem_latestOf_append horder

end Newest

/-! ## Requests -/

/-- What the two routes need beside the database. -/
structure ReportSettings where
  fleet : FleetSettings
  configHash : InventoryRequest → String
  /-- When the class `MachineSpec` was defined. -/
  definedAt : Time

/-- What submissions need; both routes normalize alike. -/
def ReportSettings.inventorying (r : ReportSettings) : Inventorying :=
  ⟨r.fleet.importing.normalize, r.configHash, r.definedAt⟩

/-- A submission or an import. -/
inductive ReportRequest where
  | submit (machineCn : Option Uuid) (body : InventoryRequest)
  | importOffline (request : ImportRequest)

/-- The program of a request. -/
def reportRoute (r : ReportSettings) : ReportRequest → Handler Unit
  | .submit machineCn body => do let _ ← submitInventory r.inventorying machineCn body
  | .importOffline request => do let _ ← importRoute r.fleet request

/-- The time of a payload: the one that it names, or that of the clock. -/
def importTime (J : Importing) (payload : List (String × Json)) (time : Time) : Time :=
  let exported := getD payload "exported_at" .null
  if exported.truthy then (J.timeOf (exported.pyStr J.reprs)).getD time else time

/-- The import is accepted for a machine: for the one that is found, or for the one that it creates. -/
def ImportsInto (c : FleetSettings) (s : AtRest Data) (request : ImportRequest) (answers : ℕ → Env)
    (id : Uuid) : Prop :=
  ∃ admin fingerprint weighted found, Readable c s.data request admin fingerprint weighted ∧
    Storable c.importing request.1.payload ∧
    foundBy c.identification s.data (orgOf c s.data admin request) (namedBy c request) fingerprint weighted
      answers = some found ∧
    found.getD s.drawn = id

/-- What is dated `time` is no earlier than what is stored of the machine: than when it was last seen and, if
there is a configuration, than its snapshots. -/
def NoEarlier (data : Data) (machineId : Uuid) (payload : List (String × Json)) (time : Time) : Prop :=
  (∀ m, data.machines.get machineId = some m → ∀ seen ∈ m.lastSeenAt, seen ≤ time) ∧
    (specFromPayload (innerSpec payload) ≠ [] → ∀ spec ∈ specsOf data machineId, spec.collectedAt ≤ time)

/-- **The condition** on a request: a submission that is stored for the machine finds no snapshot that is later
than the definition of the class, which, if `dated` holds, is the time of the submission; and an import that
is accepted for the machine is no earlier than what is stored. -/
def InOrder (r : ReportSettings) (dated : Prop) (machineId : Uuid) (s : AtRest Data) :
    ReportRequest × (ℕ → Env) → Prop
  | (.submit machineCn body, answers) =>
    machineCn = some machineId → Accepts machineId s.data →
      (∀ spec ∈ latestSpec s.data machineId (answers 0).first,
        spec.configHash ≠ some (r.inventorying.hashOf body)) →
      (dated → r.definedAt = (answers 1).now) ∧
        ∀ spec ∈ specsOf s.data machineId, spec.collectedAt ≤ r.definedAt
  | (.importOffline request, answers) =>
    ImportsInto r.fleet s request answers machineId → ∀ i,
      NoEarlier s.data machineId request.1.payload
        (importTime r.fleet.importing request.1.payload (answers i).now)

/-! ## What an import changes -/

section Import

variable (N : Normalizers) (dated : Prop) (machineId id : Uuid) (time : Time) (before : Data)

/-- The machine was last seen as before or, if the import is about it, at the time of the import. -/
def SeenAt (data : Data) : Prop :=
  ∀ m, before.machines.get machineId = some m → ∃ m', data.machines.get machineId = some m' ∧
    (m'.lastSeenAt = m.lastSeenAt ∨ id = machineId ∧ m'.lastSeenAt = some time)

/-- Nothing has been stored yet. -/
structure Unstored (data : Data) : Prop where
  seen : SeenAt machineId id time before data
  specs : specsOf data machineId = specsOf before machineId
  current : data.current.get machineId = before.current.get machineId

/-- **What an import leaves**: if the payload has a configuration and the import is about the machine, one more
snapshot, which the row shows. -/
structure Leaves (payload : List (String × Json)) (data : Data) : Prop where
  seen : SeenAt machineId id time before data
  stored : (specsOf data machineId = specsOf before machineId ∧
      data.current.get machineId = before.current.get machineId) ∨
    id = machineId ∧ specFromPayload (innerSpec payload) ≠ [] ∧ ∃ spec row, spec.collectedAt = time ∧
      specsOf data machineId = specsOf before machineId ++ [spec] ∧
      data.current.get machineId = some row ∧ row.Shows N dated spec

/-- The writes of a configuration, before the rows of the installed software. -/
def specWrites (reported : Reported) (configHash : Option String) (isVm : Option Bool) : List DataWrite :=
  [.newSpec ⟨id, reported, N.osOf reported, configHash, time⟩,
    .current id ⟨time, configHash, configurationOf N reported isVm⟩, .clearSoftware id]

/-- A write of an import before its configuration. -/
def OfMachine : DataWrite → Prop
  | .machine i base cur => cur.lastSeenAt = base.lastSeenAt ∨ i = id ∧ cur.lastSeenAt = some time
  | .newSpec _ => False
  | .current _ _ => False
  | _ => True

variable {N dated machineId id time before} {payload : List (String × Json)} {data : Data}

theorem lastSeenAt_writeBack {i : Uuid} {base cur : Machine} (h : OfMachine id time (.machine i base cur))
    (stored : Machine) : (Machine.writeBack base cur stored).lastSeenAt = stored.lastSeenAt ∨
      i = id ∧ (Machine.writeBack base cur stored).lastSeenAt = some time := by
  change pick base.lastSeenAt cur.lastSeenAt stored.lastSeenAt = stored.lastSeenAt ∨
    i = id ∧ pick base.lastSeenAt cur.lastSeenAt stored.lastSeenAt = some time
  rcases pick_cases base.lastSeenAt cur.lastSeenAt stored.lastSeenAt with ⟨-, hpick⟩ | ⟨hne, hpick⟩
  · exact .inl hpick
  · obtain ⟨hi, hcur⟩ := h.resolve_left hne
    exact .inr ⟨hi, hpick.trans hcur⟩

theorem SeenAt.machine {i : Uuid} {base cur : Machine} (hw : OfMachine id time (.machine i base cur))
    (h : SeenAt machineId id time before data) :
    SeenAt machineId id time before (Applies.apply (DataWrite.machine i base cur) data) := by
  intro m hm
  obtain ⟨stored, hstored, hseen⟩ := h m hm
  rw [machines_machine]
  by_cases hi : machineId = i
  · subst hi
    rw [Table.get_modify_self, hstored]
    refine ⟨_, rfl, ?_⟩
    rcases lastSeenAt_writeBack hw stored with hsame | ⟨rfl, htime⟩
    · rw [hsame]
      exact hseen
    · exact .inr ⟨rfl, htime⟩
  · rw [Table.get_modify_of_ne _ _ hi]
    exact ⟨stored, hstored, hseen⟩

/-- **Before the configuration** nothing is stored. -/
theorem Unstored.apply {w : DataWrite} (hw : OfMachine id time w) (data : Data)
    (h : Unstored machineId id time before data) : Unstored machineId id time before (Applies.apply w data) := by
  cases w with
  | machine i base cur => exact ⟨h.seen.machine hw, h.specs, h.current⟩
  | newMachine i row =>
    refine ⟨fun m hm => ?_, h.specs, h.current⟩
    obtain ⟨m', hm', hseen⟩ := h.seen m hm
    exact ⟨m', Table.get_insert_of_get hm', hseen⟩
  | newSpec row => exact hw.elim
  | current i row => exact hw.elim
  | _ => exact ⟨h.seen, h.specs, h.current⟩

theorem Leaves.newSoftware (row : MachineSoftware) (h : Leaves N dated machineId id time before payload data) :
    Leaves N dated machineId id time before payload (Applies.apply (DataWrite.newSoftware row) data) :=
  ⟨h.seen, h.stored⟩

/-- **The configuration is stored.** -/
theorem Unstored.leaves (h : Unstored machineId id time before data)
    (hspec : specFromPayload (innerSpec payload) ≠ []) (reported : Reported) (configHash : Option String)
    (isVm : Option Bool) : Leaves N dated machineId id time before payload
      (applyAll (specWrites N id time reported configHash isVm) data) := by
  have hadded : (applyAll (specWrites N id time reported configHash isVm) data).specs =
      data.specs ++ [⟨id, reported, N.osOf reported, configHash, time⟩] := rfl
  have hspecs : specsOf (applyAll (specWrites N id time reported configHash isVm) data) machineId =
      specsOf data machineId ++
        if id = machineId then [⟨id, reported, N.osOf reported, configHash, time⟩] else [] :=
    specsOf_append hadded machineId
  rw [h.specs] at hspecs
  refine ⟨h.seen, ?_⟩
  by_cases hid : id = machineId
  · subst hid
    rw [if_pos rfl] at hspecs
    exact .inr ⟨rfl, hspec, _, _, rfl, hspecs, Table.get_modify_insert_self data.current id _, fun _ => rfl, rfl,
      rfl⟩
  · rw [if_neg hid, List.append_nil] at hspecs
    refine .inl ⟨hspecs, ?_⟩
    rw [← h.current]
    exact Table.get_modify_insert_of_ne data.current _ _ (Ne.symm hid)

theorem Unstored.refl (data : Data) : Unstored machineId id time data data :=
  ⟨fun m hm => ⟨m, hm, .inl rfl⟩, rfl, rfl⟩

section Program

variable (dated) (I : Identification) (J : Importing) {x : Alone Data DataWrite Env} {P : Data → Prop}

theorem keeps_importSpec_leaves (hx : Unstored machineId id time before x.view) (payload : List (String × Json)) :
    (importSpec J id payload time).CommitsKeep P (fun r y => r = .ok () →
      (specFromPayload (innerSpec payload) = [] ∨
        J.columnsOf (specFromPayload (innerSpec payload)) ≠ none ∧
        columnText (getD (specFromPayload (innerSpec payload)) "config_hash" .null) ≠ none ∧
        columnBool (getD (innerSpec payload) "is_vm" .null) ≠ none) ∧
      Leaves J.normalize dated machineId id time before payload y.view) x := by
  unfold importSpec
  dsimp only
  split
  · rename_i hempty
    exact keeps_pure fun _ => ⟨.inl hempty, hx.seen, .inl ⟨hx.specs, hx.current⟩⟩
  · rename_i hspec
    split
    · rename_i reported configHash isVm hcolumns htext hbool
      refine keeps_insert _ (Prog.CommitsKeep.bind (keeps_update _ _ (keeps_insert _ ?_)))
      refine ((only_insertSoftware (A := fun w => ∃ row, w = .newSoftware row) (fun row => ⟨row, rfl⟩) id time
        _).commitsKeep_silent (P := Leaves J.normalize dated machineId id time before payload) ?_ ?_).mono
          fun _ y hy => keeps_pure fun _ => ⟨.inr ?_, hy.2⟩
      · rintro w ⟨row, rfl⟩ d hd
        exact hd.newSoftware row
      · rw [Alone.view_write, Alone.view_write, Alone.view_write]
        exact hx.leaves hspec reported configHash isVm
      · rw [hcolumns, htext, hbool]
        simp
    · exact keeps_pure fun h => by cases h

/-- **The second half of an import.** -/
theorem keeps_finishImport_leaves (hx : Unstored machineId id time before x.view) {base machine : Machine}
    (hbase : machine.lastSeenAt = base.lastSeenAt) (isNew : Bool) {payload : List (String × Json)}
    (hP : ∀ d, Storable J payload → Leaves J.normalize dated machineId id time before payload d → P d) :
    (finishImport J id base machine isNew payload time).CommitsKeep P (fun _ _ => True) x := by
  have hpublic := importedFrom_isSome machine payload
  rw [finishImport]
  cases hcur : machine.importedFrom payload with
  | none => exact keeps_pure trivial
  | some cur =>
    rw [hcur] at hpublic
    obtain ⟨isVm, publicIp, heq⟩ := Machine.importedFrom_eq hcur
    have hflush : (flushMachine id base cur).Only (OfMachine id time) (fun _ => False) fun _ => True :=
      only_flushMachine (.inl (by rw [heq]; exact hbase))
    refine Prog.CommitsKeep.bind ((hflush.commitsKeep_silent (fun _ => Unstored.apply) hx).mono
      fun _ y hy => ?_)
    refine Prog.CommitsKeep.bind ((keeps_importSpec_leaves dated J hy.2 payload).mono fun stored z hz => ?_)
    cases stored with
    | error e => exact keeps_pure trivial
    | ok _ =>
      obtain ⟨hstorable, hleaves⟩ := hz rfl
      exact keeps_publish _ (hP _ ⟨hpublic.symm, hstorable⟩ hleaves) (keeps_pure trivial)

/-- **An import**, from the verified payload on. -/
theorem keeps_importPayload_leaves (admin : User) (payload : List (String × Json)) (machineUuid : String)
    {fingerprint : Fingerprint} {weighted : String} (hostname : Option String)
    (hweighted : computeWeightedId I fingerprint = some weighted)
    (hP : ∀ found i d, Storable J payload →
      foundBy I x.view (importOrg J x.view admin payload) machineUuid fingerprint weighted x.answers =
        some found →
      Leaves J.normalize dated machineId (found.getD x.drawn) (importTime J payload (x.answers i).now) x.view
        payload d → P d) :
    (importPayload I J admin payload machineUuid fingerprint hostname).CommitsKeep P (fun _ _ => True) x := by
  refine keeps_select _ ?_
  rw [hweighted]
  refine Prog.CommitsKeep.bind ((keeps_selected I x _ _ _ _).mono fun found y hy => ?_)
  obtain ⟨hfound, hview, hdrawn, k, hanswers⟩ := hy
  have hfoundBy : foundBy I x.view (importOrg J x.view admin payload) machineUuid fingerprint weighted x.answers =
      found.map (Option.map Prod.fst) := by
    rw [foundBy, hfound]
  cases found with
  | none => exact keeps_pure trivial
  | some found =>
    have hanswer : y.answers 0 = x.answers k := by
      rw [hanswers]
      exact congrArg x.answers (Nat.zero_add k)
    have hbefore : ∀ id, Unstored machineId id (importTime J payload (x.answers k).now) x.view y.view :=
      fun id => hview ▸ .refl _
    have htag : ∀ id, (ensureClassification id "bmnn" none).Only
        (OfMachine id (importTime J payload (x.answers k).now)) (fun _ => False) fun _ => True :=
      fun id => only_ensureClassification (fun _ => trivial) id none "bmnn"
    refine keeps_answer _ ?_
    rw [hanswer]
    cases found with
    | none =>
      rw [← hdrawn] at hP
      refine Prog.CommitsKeep.bind (keeps_fresh (keeps_insert _ (Prog.CommitsKeep.bind
        (((htag y.drawn).commitsKeep_silent (P := Unstored machineId y.drawn _ x.view)
          (fun _ => Unstored.apply) ?_).mono fun _ z hz => keeps_pure ?_))))
      · rw [Alone.view_write]
        exact (hbefore y.drawn).apply (w := .newMachine y.drawn _) trivial _
      · exact keeps_finishImport_leaves dated J hz.2 rfl true fun d hstorable => hP none k d hstorable hfoundBy
    | some m =>
      have hflush : ∀ hostname, (flushMachine m.1 m.2 { m.2 with
          lastSeenAt := some (importTime J payload (x.answers k).now)
          hostname := hostname }).Only (OfMachine m.1 (importTime J payload (x.answers k).now))
            (fun _ => False) fun _ => True := fun hostname => only_flushMachine (.inr ⟨rfl, rfl⟩)
      refine Prog.CommitsKeep.bind (((hflush _).commitsKeep_silent
        (x := { y with answers := fun i => y.answers (i + 1) }) (fun _ => Unstored.apply)
        (hbefore m.1)).mono fun _ z hz => Prog.CommitsKeep.bind
          (((htag m.1).commitsKeep_silent (fun _ => Unstored.apply) hz.2).mono fun _ z' hz' => ?_))
      exact keeps_finishImport_leaves dated J hz'.2 rfl false fun d hstorable => hP (some m.1) k d hstorable hfoundBy

end Program

/-- **An import that is no earlier than what is stored** keeps what is expected. -/
theorem Leaves.newest (h : Leaves N dated machineId id time before payload data)
    (hbefore : Newest N dated machineId before)
    (horder : id = machineId → NoEarlier before machineId payload time) :
    Newest N dated machineId data ∧ SeenLater machineId before data := by
  constructor
  · rcases h.stored with ⟨hspecs, hcurrent⟩ | ⟨hid, hspec, spec, row, rfl, hspecs, hrow, hshows⟩
    · exact hbefore.congr hspecs hcurrent
    · exact newest_of_append hspecs ((horder hid).2 hspec) hrow hshows
  · intro m hm
    obtain ⟨m', hm', hseen⟩ := h.seen m hm
    refine ⟨m', hm', fun seen hmem => ?_⟩
    rcases hseen with hsame | ⟨hid, htime⟩
    · exact ⟨seen, hsame ▸ hmem, le_refl seen⟩
    · exact ⟨time, htime, (horder hid).1 m hm seen hmem⟩

end Import

/-! ## What a submission changes -/

section Submission

variable {V : Inventorying} {machineId id : Uuid} {machine : Machine} {body : InventoryRequest} {time : Time}
  {data : Data}

theorem seenLater_submissionWrites :
    SeenLater machineId data (applyAll (submissionWrites V id machine body time) data) := by
  intro m hm
  rw [applyAll_submissionWrites.2.2]
  split
  · exact SeenLater.refl data m hm
  · by_cases hid : machineId = id
    · subst hid
      rw [Table.get_modify_self, hm]
      refine ⟨_, rfl, fun seen hseen => ⟨seen, ?_, le_refl seen⟩⟩
      change seen ∈ pick machine.lastSeenAt machine.lastSeenAt m.lastSeenAt
      rwa [pick_same]
    · rw [Table.get_modify_of_ne _ _ hid]
      exact SeenLater.refl data m hm

theorem newest_submissionWrites_of_ne {N : Normalizers} {dated : Prop} (hid : id ≠ machineId)
    (h : Newest N dated machineId data) :
    Newest N dated machineId (applyAll (submissionWrites V id machine body time) data) := by
  have hne : (V.snapshot id body).machineId ≠ machineId := hid
  refine h.congr ?_ ?_
  · rw [specsOf_append applyAll_submissionWrites.1, if_neg hne, List.append_nil]
  · rw [applyAll_submissionWrites.2.1]
    exact Table.get_modify_insert_of_ne data.current _ _ (Ne.symm hid)

/-- **A submission that is stored**, when no snapshot is later than the definition of the class. -/
theorem newest_submissionWrites {dated : Prop} (hdated : dated → V.definedAt = time)
    (horder : ∀ spec ∈ specsOf data machineId, spec.collectedAt ≤ V.definedAt) :
    Newest V.normalize dated machineId (applyAll (submissionWrites V machineId machine body time) data) :=
  newest_of_append specsOf_submissionWrites horder current_submissionWrites
    ⟨fun h => (hdated h).symm, rfl, rfl⟩

end Submission

/-! ## Runs -/

section Runs

variable {r : ReportSettings} {dated : Prop} {machineId : Uuid} {s t : AtRest Data}

theorem data_submitInventory_of_not_accepts (V : Inventorying) {machineCn : Option Uuid} (s : AtRest Data)
    (h : ∀ id, machineCn = some id → ¬ Accepts id s.data) (body : InventoryRequest) (answers : ℕ → Env) :
    (serveAlone (submitInventory V machineCn) s body answers).2.data = s.data := by
  cases machineCn with
  | none => rfl
  | some id =>
    have hview : (⟨s.data, [], s.drawn, answers⟩ : Alone Data DataWrite Env).view = s.data := rfl
    rw [serveAlone, submitInventory, alone_select, hview]
    cases hm : s.data.machines.get id with
    | none => rfl
    | some machine =>
      dsimp only
      split
      · rfl
      · rename_i hstatus
        exact absurd ⟨machine, hm, hstatus⟩ (h id rfl)

/-- **A submission** that is in order. -/
theorem newest_submit {machineCn : Option Uuid} {body : InventoryRequest} {answers : ℕ → Env}
    (hs : Newest r.fleet.importing.normalize dated machineId s.data)
    (horder : InOrder r dated machineId s (.submit machineCn body, answers)) :
    let t := (serveAlone (submitInventory r.inventorying machineCn) s body answers).2
    Newest r.fleet.importing.normalize dated machineId t.data ∧ SeenLater machineId s.data t.data := by
  dsimp only
  by_cases haccepts : ∃ id, machineCn = some id ∧ Accepts id s.data
  · obtain ⟨id, rfl, machine, hmachine, hstatus⟩ := haccepts
    have hdata := data_submit r.inventorying id hmachine hstatus (s := s) (body, answers)
    rw [submit] at hdata
    rw [hdata]
    split
    · exact ⟨hs, .refl s.data⟩
    · rename_i hany
      refine ⟨?_, seenLater_submissionWrites⟩
      by_cases hid : id = machineId
      · subst hid
        obtain ⟨hdated, hspecs⟩ := horder rfl ⟨machine, hmachine, hstatus⟩ fun spec hspec hhash =>
          hany ((Option.any_eq_true _ _).mpr ⟨spec, hspec, decide_eq_true hhash⟩)
        exact newest_submissionWrites (V := r.inventorying) hdated hspecs
      · exact newest_submissionWrites_of_ne hid hs
  · rw [data_submitInventory_of_not_accepts r.inventorying s fun id hid haccepted =>
      haccepts ⟨id, hid, haccepted⟩]
    exact ⟨hs, .refl s.data⟩

/-- **An import** that is in order. -/
theorem newest_import {request : ImportRequest} {answers : ℕ → Env}
    (hs : Newest r.fleet.importing.normalize dated machineId s.data)
    (horder : InOrder r dated machineId s (.importOffline request, answers)) :
    let t := (serveAlone (importRoute r.fleet) s request answers).2
    Newest r.fleet.importing.normalize dated machineId t.data ∧ SeenLater machineId s.data t.data := by
  rcases readable_or_refused (c := r.fleet) request ⟨s.data, [], s.drawn, answers⟩ with
    ⟨admin, fingerprint, weighted, hreadable⟩ | ⟨-, hdata⟩
  · obtain ⟨hostname, halone⟩ := hreadable.alone
    have hkeeps := keeps_importPayload_leaves dated r.fleet.identification r.fleet.importing
      (x := ⟨s.data, [], s.drawn, answers⟩) (P := fun d => Newest r.fleet.importing.normalize dated machineId d ∧
        SeenLater machineId s.data d) admin request.1.payload (namedBy r.fleet request) hostname
      hreadable.computed fun found i d hstorable hfound hleaves => hleaves.newest hs fun hid =>
        horder ⟨admin, fingerprint, weighted, found, hreadable, hstorable, hfound, hid⟩ i
    have hend := hkeeps.data ⟨hs, .refl s.data⟩
    rw [← halone] at hend
    exact hend
  · have hsame : (serveAlone (importRoute r.fleet) s request answers).2.data = s.data := hdata
    dsimp only
    rw [hsame]
    exact ⟨hs, .refl s.data⟩

/-- **One request** that is in order. -/
theorem newest_step {action : ReportRequest × (ℕ → Env)}
    (hs : Newest r.fleet.importing.normalize dated machineId s.data) (horder : InOrder r dated machineId s action) :
    let t := (serveAlone (reportRoute r) s action.1 action.2).2
    Newest r.fleet.importing.normalize dated machineId t.data ∧ SeenLater machineId s.data t.data := by
  obtain ⟨request, answers⟩ := action
  cases request with
  | submit machineCn body =>
    rw [serveAlone, reportRoute, alone_bind]
    exact newest_submit hs horder
  | importOffline request =>
    rw [serveAlone, reportRoute, alone_bind]
    exact newest_import hs horder

/-- **The newest snapshot, in every run.**  If every request is in order in the state that it finds, the current
configuration is that of the newest snapshot throughout, and the machine was never last seen earlier than
before. -/
theorem newest_of_runs (r : ReportSettings) (dated : Prop) (machineId : Uuid)
    (hs : Newest r.fleet.importing.normalize dated machineId s.data)
    (hrun : Runs (serveStep (reportRoute r)) (InOrder r dated machineId) s t) :
    Newest r.fleet.importing.normalize dated machineId t.data ∧ SeenLater machineId s.data t.data :=
  hrun.invariant (I := fun u => Newest r.fleet.importing.normalize dated machineId u.data ∧
    SeenLater machineId s.data u.data) (fun u action v hu horder hstep => by
      obtain rfl := Option.some.inj hstep
      obtain ⟨hnewest, hseen⟩ := newest_step hu.1 horder
      exact ⟨hnewest, hu.2.trans hseen⟩) ⟨hs, .refl s.data⟩

end Runs

/-! ## Two exports of one machine -/

/-- The columns of a configuration without entries of its own. -/
def exampleReported : Reported :=
  ⟨none, none, none, none, none, none, none, none, none, none, none, none, none, none, none, none, none, none,
    none, none⟩

/-- Exports are dated one minute or two minutes after the epoch. -/
def exampleReports : ReportSettings where
  fleet :=
    { exampleFleet with
      importing :=
        { exampleImporting with
          timeOf := fun text =>
            if text = "1970-01-01T00:01:00+00:00" then some (minutes 1)
            else if text = "1970-01-01T00:02:00+00:00" then some (minutes 2)
            else none
          columnsOf := fun _ => some exampleReported } }
  configHash := fun _ => ""
  definedAt := 0

/-- An export of a machine, imported by the administrator. -/
def exampleExport (exportedAt configHash : String) : ReportRequest × (ℕ → Env) :=
  (.importOffline (⟨[("fingerprint", .obj [("smbios_uuid", .str "4C4C4544")]), ("exported_at", .str exportedAt),
    ("config_hash", .str configHash)], "", ""⟩, some 0), fun _ => exampleAnswer)

/-- The exports are imported one after the other. -/
def importExports (actions : List (ReportRequest × (ℕ → Env))) : AtRest Data :=
  actions.foldl (fun s action => (serveAlone (reportRoute exampleReports) s action.1 action.2).2) ⟨adminData, 0⟩

theorem newest_adminData (dated : Prop) : Newest exampleNormalizers dated 0 adminData :=
  ⟨fun _ => rfl, fun h => absurd rfl h⟩

/-- **An export that is older than the one before it** is taken for the current configuration. -/
theorem older_import_taken : ¬ ∀ (r : ReportSettings) (dated : Prop) (machineId : Uuid) (s t : AtRest Data),
    Newest r.fleet.importing.normalize dated machineId s.data →
    Runs (serveStep (reportRoute r)) anyAction s t →
    Newest r.fleet.importing.normalize dated machineId t.data ∧ SeenLater machineId s.data t.data := by
  intro h
  let newer := exampleExport "1970-01-01T00:02:00+00:00" "b"
  let older := exampleExport "1970-01-01T00:01:00+00:00" "a"
  have hlatest : (latestOf (specsOf (importExports [newer, older]).data 0)).map MachineSpec.configHash =
      [some "b"] := by decide +kernel
  have hcurrent : ((importExports [newer, older]).data.current.get 0).map MachineCurrent.configHash =
      some (some "a") := by decide +kernel
  obtain ⟨hnewest, -⟩ := h exampleReports False 0 ⟨adminData, 0⟩ (importExports [newer, older])
    (newest_adminData False)
    ((Runs.single newer trivial rfl).tail older trivial rfl)
  obtain ⟨spec, hspec, row, hrow, hshows⟩ := hnewest.present fun hnil => by
    rw [hnil] at hlatest
    cases hlatest
  have hhash : spec.configHash = some "b" := by
    have hmem := List.mem_map_of_mem (f := MachineSpec.configHash) hspec
    rw [hlatest] at hmem
    exact List.mem_singleton.mp hmem
  rw [hrow, Option.map_some, hshows.configHash, hhash] at hcurrent
  exact absurd hcurrent (by decide)

theorem newest_of_runs_exports :
    let t := importExports [exampleExport "1970-01-01T00:01:00+00:00" "a",
      exampleExport "1970-01-01T00:02:00+00:00" "b"]
    Newest exampleNormalizers True 0 t.data ∧ SeenLater 0 adminData t.data := by
  let older := exampleExport "1970-01-01T00:01:00+00:00" "a"
  let newer := exampleExport "1970-01-01T00:02:00+00:00" "b"
  have hseen : ((importExports [older]).data.machines.get 0).all
      (fun m => m.lastSeenAt.all fun seen => decide (seen ≤ minutes 2)) = true := by decide +kernel
  have hspecs : (specsOf (importExports [older]).data 0).all
      (fun spec => decide (spec.collectedAt ≤ minutes 2)) = true := by decide +kernel
  refine newest_of_runs (s := ⟨adminData, 0⟩) exampleReports True 0 (newest_adminData True)
    ((Runs.single older ?_ rfl).tail newer ?_ rfl)
  · exact fun _ i => ⟨(fun m hm => by cases hm), (fun _ spec hspec => by cases hspec)⟩
  · refine fun _ i => ⟨fun m hm seen hmem => ?_, fun _ spec hspec => ?_⟩
    · have hget : (importExports [older]).data.machines.get 0 = some m := hm
      rw [hget, Option.all_some, hmem, Option.all_some] at hseen
      exact of_decide_eq_true hseen
    · exact of_decide_eq_true (List.all_eq_true.mp hspecs spec hspec)

end AssetInventory.Fleet

import AssetInventory.Lib.PyUrl
import AssetInventory.Velociraptor.Allowlist

/-!
# What the record of a hunt says

A hunt for several clients asks each of them for a collection and keeps the flows that were started.  Its record takes
the id of the first flow, and a link to the first client.

* `createdRecord`, `runNowRecord`: the records that `create_velociraptor_hunt` and `run_dfir_schedule_now` leave, with
  the link; `hunts_createVelociraptorHunt` and `hunts_runDfirScheduleNow` say that the routes leave them.
* `getVelociraptorHuntStatus`: the request for the status of a hunt.
* `HuntRecord.Describes`: the record is completed only if a flow was started, its id and its link are of one client,
  and the status of its id can be asked for.
* `recordDescribes_iff`: this holds exactly when the first client that is asked starts a flow, with an id that is new
  and, if the hunt is for all clients, a UUID.
-/

namespace AssetInventory.Velociraptor

open PyJson PyUrl RowStore Server

/-! ## Flows and links -/

/-- The flow that a client starts; an exception or an empty id is none. -/
def Outside.flowOf (out : Outside) (artifact clientId : String) : Option String :=
  given (out.collect clientId artifact).toOption

/-- The flows that are started, in the order of the clients. -/
def Outside.flowsOf (out : Outside) (artifact : String) (clientIds : List String) : List String :=
  clientIds.filterMap (out.flowOf artifact)

theorem flows_collectFrom (out : Outside) (artifact : String) (clientIds : List String) (desk : Desk) :
    (collectFrom out artifact clientIds desk).2 = out.flowsOf artifact clientIds := by
  rw [collectFrom, List.filter_filterMap]
  rfl

/-- The page of a host in the GUI. -/
def hostUrl (cfg : VelociraptorConfig) (host : String) : String :=
  rstrip '/' (cfg.serverUrl.getD "") ++ "/#/host/" ++ host

theorem hostUrl_injective (cfg : VelociraptorConfig) : Function.Injective (hostUrl cfg) :=
  fun _ _ h => (String.append_right_inj _).mp h

/-! ## The records -/

/-- A row of `dfir_hunts`, with its link. -/
structure HuntRecord where
  hunt : DfirHunt
  velociraptorUrl : Option String

/-- What is collected, and from whom. -/
structure HuntJob where
  cfg : VelociraptorConfig
  artifact : String
  scope : HuntScope
  targets : HuntTargets

/-- `velociraptor_url`, when the collection has ended; `host` is how the id of the client is written. -/
def HuntJob.url (job : HuntJob) (out : Outside) (host : String → String) : Option String :=
  match job.targets with
  | .single clientId => some (hostUrl job.cfg (host clientId))
  | targets =>
    if out.flowsOf job.artifact (targets.reached out) = [] then none
    else (targets.reached out).head?.map fun clientId => hostUrl job.cfg (host clientId)

/-- The job of `create_velociraptor_hunt`, after the checks. -/
def createdJob (out : Outside) (body : DfirHuntCreate) (desk : Desk) : Option HuntJob :=
  match buildVelociraptorClient out desk with
  | .ok (some cfg) =>
    match validateArtifact body.artifact (cfg.allowlist.getD []), huntTargets desk body with
    | none, .ok targets => some ⟨cfg, body.artifact, body.scope, targets⟩
    | _, _ => none
  | _ => none

/-- The record that `create_velociraptor_hunt` leaves. -/
def createdRecord (out : Outside) (admin : Uuid) (body : DfirHuntCreate) (desk : Desk) : Option HuntRecord :=
  (createdJob out body desk).bind fun job =>
    let hunt : DfirHunt :=
      ⟨none, body.artifact, body.scope, body.machineId, admin, "pending", body.notes.getD "", none⟩
    match (collectHunt out job.artifact job.targets desk).2 with
    | .done huntId _ => some ⟨{ hunt with huntId := huntId, status := "completed" }, job.url out quote⟩
    | .refused _ => some ⟨{ hunt with status := "error" }, none⟩
    | .raised (.velociraptor e) => some ⟨{ hunt with status := "error", error := some e }, none⟩
    | .raised (.other _) => none

/-- The job of `run_dfir_schedule_now`. -/
def runNowJob (out : Outside) (id : Uuid) (desk : Desk) : Option HuntJob :=
  match desk.schedules.get id, buildVelociraptorClient out desk with
  | some schedule, .ok (some cfg) => some ⟨cfg, schedule.artifact, schedule.scope, schedule.targets desk⟩
  | _, _ => none

/-- The record that `run_dfir_schedule_now` leaves.  The id of the client is not quoted in its link. -/
def runNowRecord (out : Outside) (admin id : Uuid) (desk : Desk) : Option HuntRecord :=
  (runNowJob out id desk).bind fun job =>
    (desk.schedules.get id).map fun schedule =>
      let hunt : DfirHunt :=
        ⟨none, schedule.artifact, schedule.scope, none, admin, "pending",
          "Trigger từ schedule '" ++ schedule.name ++ "' (manual run-now)", none⟩
      match (collectHunt out job.artifact job.targets desk).2 with
      | .done huntId _ => ⟨{ hunt with huntId := huntId, status := "completed" }, job.url out fun c => c⟩
      | ended => ⟨{ hunt with status := "error", error := some (ended.failure.getD "") }, none⟩

/-! ## The status of a hunt -/

/-- What the server answers when it is asked for a hunt. -/
structure StatusAnswers where
  /-- `get_hunt_status`. -/
  huntStatus : Except ClientExc Json
  /-- `get_hunt`, which is asked when there was a `VelociraptorError`. -/
  hunt : Except ClientExc Json

/-- The answer of `get_velociraptor_hunt_status`. -/
structure HuntStatusOut where
  huntId : String
  velociraptorStatus : Json
  dbRecord : Option DfirHunt
  velociraptorUrl : String

/-- How the request for a status ends. -/
inductive StatusEnd where
  | answered (body : HuntStatusOut)
  | refused (e : HttpError)
  /-- `MultipleResultsFound`. -/
  | multipleResults
  /-- `ValueError` of `uuid.UUID`. -/
  | badUuid
  /-- Another exception of the client. -/
  | raised (message : String)

/-- The request ends without an exception that nobody handles. -/
def StatusEnd.Handled : StatusEnd → Prop
  | .answered _ => True
  | .refused _ => True
  | _ => False

/-- What an exception of the client does to the request. -/
def ClientExc.statusEnd : ClientExc → StatusEnd
  | .velociraptor e => .refused ⟨502, "Velociraptor API lỗi: " ++ e⟩
  | .other e => .raised e

/-- `get_hunt_status`, and `get_hunt` after a `VelociraptorError`. -/
def StatusAnswers.asked (answers : StatusAnswers) : Except ClientExc Json :=
  match answers.huntStatus with
  | .error (.velociraptor _) => answers.hunt
  | asked => asked

def getVelociraptorHuntStatus (out : Outside) (answers : StatusAnswers) (huntId : String) (desk : Desk) : StatusEnd :=
  match buildVelociraptorClient out desk with
  | .error e => .refused e
  | .ok none => .refused ⟨400, "Velociraptor chưa cấu hình"⟩
  | .ok (some cfg) =>
    match scalarOneOrNone (desk.hunts.filter fun hunt => decide (hunt.huntId = some huntId)) with
    | none => .multipleResults
    | some dbRecord =>
      match out.opening with
      | some e => e.statusEnd
      | none =>
        match answers.asked with
        | .error e => e.statusEnd
        | .ok status =>
          let base := rstrip '/' (cfg.serverUrl.getD "")
          if dbRecord.map DfirHunt.scope = some .all then
            match uuidOf huntId with
            | none => .badUuid
            | some u => .answered ⟨huntId, status, dbRecord, base ++ "/#/hunts/" ++ uuidText u⟩
          else .answered ⟨huntId, status, dbRecord, base ++ "/#/collected/" ++ huntId⟩

/-! ## What is expected of a record -/

/-- The exception is a `VelociraptorError`. -/
def ClientExc.Documented : ClientExc → Prop
  | .velociraptor _ => True
  | .other _ => False

/-- In the request for the status the client raises nothing but `VelociraptorError`. -/
structure StatusAnswers.Documented (answers : StatusAnswers) (out : Outside) : Prop where
  opening : ∀ e, out.opening = some e → e.Documented
  huntStatus : ∀ e, answers.huntStatus = .error e → e.Documented
  hunt : ∀ e, answers.hunt = .error e → e.Documented

/-- **The record describes what was started**; `after` is the desk with the record. -/
structure HuntRecord.Describes (record : HuntRecord) (out : Outside) (job : HuntJob) (host : String → String)
    (after : Desk) : Prop where
  /-- It is completed only if a collection was started. -/
  started : record.hunt.status = "completed" →
    ∃ c ∈ job.targets.reached out, ∃ flow, out.flowOf job.artifact c = some flow
  /-- Its id and its link are of one client, or it has neither. -/
  sameClient : (record.hunt.huntId = none ∧ record.velociraptorUrl = none) ∨
    ∃ c ∈ job.targets.reached out, ∃ flow, out.flowOf job.artifact c = some flow ∧
      record.hunt.huntId = some flow ∧ record.velociraptorUrl = some (hostUrl job.cfg (host c))
  /-- The status of its id can be asked for. -/
  answered : ∀ flow, record.hunt.huntId = some flow → ∀ (again : Outside) (answers : StatusAnswers),
    answers.Documented again → (getVelociraptorHuntStatus again answers flow after).Handled

/-- The two requests that start a hunt. -/
inductive HuntRequest where
  | create (body : DfirHuntCreate)
  | runNow (id : Uuid)

/-- What the request collects, and from whom. -/
def HuntRequest.job (out : Outside) (desk : Desk) : HuntRequest → Option HuntJob
  | .create body => createdJob out body desk
  | .runNow id => runNowJob out id desk

/-- The record that the request leaves. -/
def HuntRequest.record (out : Outside) (admin : Uuid) (desk : Desk) : HuntRequest → Option HuntRecord
  | .create body => createdRecord out admin body desk
  | .runNow id => runNowRecord out admin id desk

/-- How the request writes the id of a client in a link. -/
def HuntRequest.host : HuntRequest → String → String
  | .create _ => quote
  | .runNow _ => fun c => c

def HuntRequest.after (out : Outside) (admin : Uuid) (desk : Desk) : HuntRequest → Desk
  | .create body => (createVelociraptorHunt out admin body desk).1
  | .runNow id => (runDfirScheduleNow out admin id desk).1

/-- The record that a request leaves for several clients describes what was started. -/
def RecordDescribes (out : Outside) (admin : Uuid) (desk : Desk) (request : HuntRequest) : Prop :=
  ∀ job, request.job out desk = some job → job.scope ≠ .single → ∀ record,
    request.record out admin desk = some record →
      record.Describes out job request.host (request.after out admin desk)

/-- The clients that are asked, if it comes to that. -/
def HuntTargets.asked (out : Outside) (targets : HuntTargets) : Option (List String) :=
  if out.opening.isSome then none
  else
    match targets with
    | .single clientId => some [clientId]
    | .multi ids => some ids
    | .all =>
      match out.clients with
      | .error _ => none
      | .ok clients => if clientIds clients = [] then none else some (clientIds clients)

/-- **The first client starts a flow**: whenever clients are asked for a hunt of several, the first one starts a flow,
no record has the id of the flow, and the id is a UUID if the hunt is for all clients. -/
def FirstStarts (out : Outside) (desk : Desk) (request : HuntRequest) : Prop :=
  ∀ job, request.job out desk = some job → job.scope ≠ .single → ∀ clients, job.targets.asked out = some clients →
    ∃ c flow, clients.head? = some c ∧ out.flowOf job.artifact c = some flow ∧
      (∀ hunt ∈ desk.hunts, hunt.huntId ≠ some flow) ∧ (job.scope = .all → (uuidOf flow).isSome = true)

/-! ## What the routes leave -/

section Left

variable {out : Outside} {admin id : Uuid} {body : DfirHuntCreate} {desk : Desk} {request : HuntRequest} {job : HuntJob}
  {targets : HuntTargets} {ids : List String}

theorem collectHunt_of_asked (artifact : String) (desk : Desk) (htargets : ∀ c, targets ≠ .single c)
    (h : targets.asked out = some ids) : (collectHunt out artifact targets desk).2 =
        .done (out.flowsOf artifact ids).head? (out.flowsOf artifact ids).length ∧
      targets.reached out = ids := by
  unfold HuntTargets.asked at h
  split_ifs at h with hopening
  have hopen : out.opening = none := by simpa using hopening
  cases targets with
  | single c => exact absurd rfl (htargets c)
  | multi clients =>
    obtain rfl := Option.some.inj h
    constructor
    · rw [← flows_collectFrom out artifact clients desk, collectHunt, hopen]
    · rw [HuntTargets.reached, hopen]
      rfl
  | all =>
    dsimp only at h
    cases hclients : out.clients with
    | error e =>
      rw [hclients] at h
      cases h
    | ok clients =>
      rw [hclients] at h
      dsimp only at h
      split_ifs at h with hnone
      obtain rfl := Option.some.inj h
      constructor
      · rw [← flows_collectFrom out artifact (clientIds clients) desk, collectHunt, hopen]
        dsimp only
        rw [hclients]
        exact congrArg Prod.snd (if_neg hnone)
      · rw [HuntTargets.reached, hopen, hclients]
        rfl

theorem collectHunt_of_not_asked (artifact : String) (h : targets.asked out = none) (huntId : Option String) (n : ℕ) :
    (collectHunt out artifact targets desk).2 ≠ .done huntId n := by
  unfold HuntTargets.asked at h
  unfold collectHunt
  cases hopen : out.opening with
  | some e => exact HuntEnd.noConfusion
  | none =>
    rw [hopen, if_neg (by decide)] at h
    cases targets with
    | single c => cases h
    | multi clients => cases h
    | all =>
      dsimp only at h ⊢
      cases hclients : out.clients with
      | error e => exact HuntEnd.noConfusion
      | ok clients =>
        rw [hclients] at h
        dsimp only at h ⊢
        split_ifs at h with hnone
        rw [if_pos hnone]
        exact HuntEnd.noConfusion

theorem collectHunt_frame (out : Outside) (artifact : String) (targets : HuntTargets) (desk : Desk) :
    (collectHunt out artifact targets desk).1.hunts = desk.hunts ∧
      (collectHunt out artifact targets desk).1.config = desk.config := by
  unfold collectHunt
  cases out.opening with
  | some e => exact ⟨rfl, rfl⟩
  | none =>
    cases targets with
    | single c =>
      dsimp only
      cases out.collect c artifact <;> exact ⟨rfl, rfl⟩
    | multi clients => exact ⟨rfl, rfl⟩
    | all =>
      dsimp only
      cases out.clients with
      | error e => exact ⟨rfl, rfl⟩
      | ok clients =>
        dsimp only
        split_ifs <;> exact ⟨rfl, rfl⟩

/-- **`create_velociraptor_hunt` leaves the record**, and the configuration. -/
theorem hunts_createVelociraptorHunt (out : Outside) (admin : Uuid) (body : DfirHuntCreate) (desk : Desk) :
    (createVelociraptorHunt out admin body desk).1.hunts =
        desk.hunts ++ ((createdRecord out admin body desk).map HuntRecord.hunt).toList ∧
      (createVelociraptorHunt out admin body desk).1.config = desk.config := by
  have hnone : desk.hunts = desk.hunts ++ [] ∧ desk.config = desk.config := ⟨(List.append_nil _).symm, rfl⟩
  unfold createVelociraptorHunt createdRecord createdJob
  cases buildVelociraptorClient out desk with
  | error e => exact hnone
  | ok built =>
    cases built with
    | none => exact hnone
    | some cfg =>
      dsimp only
      cases validateArtifact body.artifact (cfg.allowlist.getD []) with
      | some e => exact hnone
      | none =>
        dsimp only
        cases huntTargets desk body with
        | error e => exact hnone
        | ok targets =>
          obtain ⟨hhunts, hconfig⟩ := collectHunt_frame out body.artifact targets desk
          simp only [Option.bind_some]
          cases (collectHunt out body.artifact targets desk).2 with
          | done huntId n => exact ⟨congrArg (· ++ _) hhunts, hconfig⟩
          | refused e => exact ⟨congrArg (· ++ _) hhunts, hconfig⟩
          | raised e =>
            cases e with
            | velociraptor e => exact ⟨congrArg (· ++ _) hhunts, hconfig⟩
            | other e => exact ⟨hhunts.trans hnone.1, hconfig⟩

/-- **`run_dfir_schedule_now` leaves the record**, and the configuration. -/
theorem hunts_runDfirScheduleNow (out : Outside) (admin id : Uuid) (desk : Desk) :
    (runDfirScheduleNow out admin id desk).1.hunts =
        desk.hunts ++ ((runNowRecord out admin id desk).map HuntRecord.hunt).toList ∧
      (runDfirScheduleNow out admin id desk).1.config = desk.config := by
  have hnone : desk.hunts = desk.hunts ++ [] ∧ desk.config = desk.config := ⟨(List.append_nil _).symm, rfl⟩
  unfold runDfirScheduleNow runNowRecord runNowJob
  cases desk.schedules.get id with
  | none => exact hnone
  | some schedule =>
    dsimp only
    cases buildVelociraptorClient out desk with
    | error e => exact hnone
    | ok built =>
      cases built with
      | none => exact hnone
      | some cfg =>
        obtain ⟨hhunts, hconfig⟩ := collectHunt_frame out schedule.artifact (schedule.targets desk) desk
        simp only [Option.bind_some, Option.map_some]
        cases (collectHunt out schedule.artifact (schedule.targets desk) desk).2 with
        | done huntId n => exact ⟨congrArg (· ++ _) hhunts, hconfig⟩
        | refused e => exact ⟨congrArg (· ++ _) hhunts, hconfig⟩
        | raised e => exact ⟨congrArg (· ++ _) hhunts, hconfig⟩

theorem hunts_after {record : HuntRecord} (h : request.record out admin desk = some record) :
    (request.after out admin desk).hunts = desk.hunts ++ [record.hunt] ∧
      (request.after out admin desk).config = desk.config := by
  cases request with
  | create body =>
    obtain ⟨hhunts, hconfig⟩ := hunts_createVelociraptorHunt out admin body desk
    have hrecord : createdRecord out admin body desk = some record := h
    rw [hrecord] at hhunts
    exact ⟨hhunts, hconfig⟩
  | runNow id =>
    obtain ⟨hhunts, hconfig⟩ := hunts_runDfirScheduleNow out admin id desk
    have hrecord : runNowRecord out admin id desk = some record := h
    rw [hrecord] at hhunts
    exact ⟨hhunts, hconfig⟩

theorem createdJob_eq_some (h : createdJob out body desk = some job) :
    buildVelociraptorClient out desk = .ok (some job.cfg) ∧ huntTargets desk body = .ok job.targets ∧
      job.scope = body.scope ∧ job.artifact = body.artifact := by
  unfold createdJob at h
  split at h
  · rename_i cfg hbuild
    split at h
    · rename_i targets _ htargets
      obtain rfl := Option.some.inj h
      exact ⟨hbuild, htargets, rfl, rfl⟩
    · cases h
  · cases h

theorem runNowJob_eq_some (h : runNowJob out id desk = some job) :
    ∃ schedule, desk.schedules.get id = some schedule ∧ buildVelociraptorClient out desk = .ok (some job.cfg) ∧
      job.targets = schedule.targets desk ∧ job.scope = schedule.scope := by
  unfold runNowJob at h
  split at h
  · rename_i schedule cfg hschedule hbuild
    obtain rfl := Option.some.inj h
    exact ⟨schedule, hschedule, hbuild, rfl, rfl⟩
  · cases h

theorem build_of_job (h : request.job out desk = some job) :
    buildVelociraptorClient out desk = .ok (some job.cfg) := by
  cases request with
  | create body => exact (createdJob_eq_some h).1
  | runNow id =>
    obtain ⟨-, -, hbuild, -, -⟩ := runNowJob_eq_some h
    exact hbuild

theorem targets_ne_single (h : request.job out desk = some job) (hscope : job.scope ≠ .single) (c : String) :
    job.targets ≠ .single c := by
  cases request with
  | create body =>
    obtain ⟨-, htargets, hbody, -⟩ := createdJob_eq_some h
    rw [hbody] at hscope
    intro hsingle
    rw [hsingle] at htargets
    unfold huntTargets at htargets
    cases hb : body.scope with
    | single => exact hscope hb
    | multi =>
      rw [hb] at htargets
      dsimp only at htargets
      split_ifs at htargets
      cases htargets
    | all =>
      rw [hb] at htargets
      cases htargets
  | runNow id =>
    obtain ⟨schedule, -, -, htargets, -⟩ := runNowJob_eq_some h
    rw [htargets, DfirSchedule.targets]
    split_ifs <;> exact HuntTargets.noConfusion

theorem record_of_done {huntId : Option String} {n : ℕ} (admin : Uuid) (h : request.job out desk = some job)
    (hdone : (collectHunt out job.artifact job.targets desk).2 = .done huntId n) :
    ∃ hunt : DfirHunt, request.record out admin desk = some ⟨hunt, job.url out request.host⟩ ∧
      hunt.huntId = huntId ∧ hunt.status = "completed" ∧ hunt.scope = job.scope := by
  cases request with
  | create body =>
    have hjob : createdJob out body desk = some job := h
    refine ⟨⟨huntId, body.artifact, body.scope, body.machineId, admin, "completed", body.notes.getD "", none⟩,
      ?_, rfl, rfl, (createdJob_eq_some hjob).2.2.1.symm⟩
    change createdRecord out admin body desk = _
    rw [createdRecord, hjob, Option.bind_some, hdone]
    rfl
  | runNow id =>
    have hjob : runNowJob out id desk = some job := h
    obtain ⟨schedule, hschedule, -, -, hscope⟩ := runNowJob_eq_some hjob
    refine ⟨⟨huntId, schedule.artifact, schedule.scope, none, admin, "completed",
      "Trigger từ schedule '" ++ schedule.name ++ "' (manual run-now)", none⟩, ?_, rfl, rfl, hscope.symm⟩
    change runNowRecord out admin id desk = _
    rw [runNowRecord, hjob, Option.bind_some, hschedule, Option.map_some, hdone]
    rfl

theorem record_of_not_done {record : HuntRecord} (h : request.job out desk = some job)
    (hdone : ∀ huntId n, (collectHunt out job.artifact job.targets desk).2 ≠ .done huntId n)
    (hrecord : request.record out admin desk = some record) :
    record.hunt.huntId = none ∧ record.velociraptorUrl = none ∧ record.hunt.status = "error" := by
  cases request with
  | create body =>
    have hjob : createdJob out body desk = some job := h
    change createdRecord out admin body desk = _ at hrecord
    rw [createdRecord, hjob, Option.bind_some] at hrecord
    split at hrecord
    · rename_i huntId n hend
      exact absurd hend (hdone _ _)
    · obtain rfl := Option.some.inj hrecord
      exact ⟨rfl, rfl, rfl⟩
    · obtain rfl := Option.some.inj hrecord
      exact ⟨rfl, rfl, rfl⟩
    · cases hrecord
  | runNow id =>
    have hjob : runNowJob out id desk = some job := h
    obtain ⟨schedule, hschedule, -⟩ := runNowJob_eq_some hjob
    change runNowRecord out admin id desk = _ at hrecord
    rw [runNowRecord, hjob, Option.bind_some, hschedule, Option.map_some] at hrecord
    obtain rfl := Option.some.inj hrecord
    dsimp only
    split
    · rename_i huntId n hend
      exact absurd hend (hdone _ _)
    · exact ⟨rfl, rfl, rfl⟩

end Left

/-! ## When the status can be asked for -/

section Status

variable {out : Outside} {cfg : VelociraptorConfig} {hunts : List DfirHunt} {hunt : DfirHunt} {flow : String}
  {after : Desk}

/-- The last record is found under its id exactly when no other one has it. -/
theorem found_append (hunts : List DfirHunt) (hflow : hunt.huntId = some flow) :
    scalarOneOrNone ((hunts ++ [hunt]).filter fun hunt => decide (hunt.huntId = some flow)) =
      if ∀ other ∈ hunts, other.huntId ≠ some flow then some (some hunt) else none := by
  have hlast : [hunt].filter (fun hunt => decide (hunt.huntId = some flow)) = [hunt] :=
    List.filter_cons_of_pos (decide_eq_true hflow)
  rw [List.filter_append, hlast]
  split_ifs with hnew
  · have hnone : hunts.filter (fun hunt => decide (hunt.huntId = some flow)) = [] :=
      List.filter_eq_nil_iff.mpr fun other hother h => hnew other hother (of_decide_eq_true h)
    rw [hnone]
    rfl
  · push Not at hnew
    obtain ⟨other, hother, hid⟩ := hnew
    have hmem : other ∈ hunts.filter fun hunt => decide (hunt.huntId = some flow) :=
      List.mem_filter.mpr ⟨hother, decide_eq_true hid⟩
    cases hfilter : hunts.filter fun hunt => decide (hunt.huntId = some flow) with
    | nil =>
      rw [hfilter] at hmem
      exact absurd hmem List.not_mem_nil
    | cons first rest => cases rest <;> rfl

theorem ClientExc.Documented.handled {e : ClientExc} (h : e.Documented) : e.statusEnd.Handled := by
  cases e with
  | velociraptor message => exact trivial
  | other message => exact h.elim

theorem StatusAnswers.Documented.asked {answers : StatusAnswers} {e : ClientExc} (h : answers.Documented out)
    (hasked : answers.asked = .error e) : e.Documented := by
  unfold StatusAnswers.asked at hasked
  split at hasked
  · exact h.hunt e hasked
  · exact h.huntStatus e hasked

theorem build_congr {desk : Desk} (out : Outside) (opening : Option ClientExc) (hconfig : after.config = desk.config) :
    buildVelociraptorClient { out with opening := opening } after = buildVelociraptorClient out desk := by
  unfold buildVelociraptorClient
  rw [hconfig]

/-- **The status of a new record can be asked for** exactly when no other record has its id, and this is a UUID if the
hunt is for all clients. -/
theorem handled_iff (hafter : after.hunts = hunts ++ [hunt]) (hflow : hunt.huntId = some flow)
    (hbuild : buildVelociraptorClient { out with opening := none } after = .ok (some cfg)) :
    (∀ (again : Outside) (answers : StatusAnswers), answers.Documented again →
        (getVelociraptorHuntStatus again answers flow after).Handled) ↔
      (∀ other ∈ hunts, other.huntId ≠ some flow) ∧ (hunt.scope = .all → (uuidOf flow).isSome = true) := by
  have hfound := found_append hunts hflow
  constructor
  · intro h
    have hdocumented : (⟨.ok .null, .ok .null⟩ : StatusAnswers).Documented { out with opening := none } := by
      constructor <;> exact fun e he => by cases he
    have hanswered := h _ _ hdocumented
    rw [getVelociraptorHuntStatus, hbuild, hafter] at hanswered
    dsimp only at hanswered
    rw [hfound] at hanswered
    by_cases hnew : ∀ other ∈ hunts, other.huntId ≠ some flow
    · refine ⟨hnew, fun hall => ?_⟩
      rw [if_pos hnew] at hanswered
      have hscope : (some hunt).map DfirHunt.scope = some .all := congrArg some hall
      dsimp only [StatusAnswers.asked] at hanswered
      rw [if_pos hscope] at hanswered
      cases huuid : uuidOf flow with
      | none =>
        rw [huuid] at hanswered
        exact hanswered.elim
      | some u => rfl
    · rw [if_neg hnew] at hanswered
      exact hanswered.elim
  · rintro ⟨hnew, huuid⟩ again answers hdocumented
    rw [if_pos hnew] at hfound
    unfold getVelociraptorHuntStatus
    split
    · exact trivial
    · exact trivial
    · rw [hafter, hfound]
      dsimp only
      cases hopening : again.opening with
      | some e => exact (hdocumented.opening e hopening).handled
      | none =>
        dsimp only
        cases hasked : answers.asked with
        | error e => exact (hdocumented.asked hasked).handled
        | ok status =>
          dsimp only
          by_cases hall : (some hunt).map DfirHunt.scope = some .all
          · obtain ⟨u, hu⟩ := Option.isSome_iff_exists.mp (huuid (Option.some.inj hall))
            rw [if_pos hall, hu]
            exact trivial
          · rw [if_neg hall]
            exact trivial

end Status

/-! ## When a record describes what was started -/

section Describes

variable {out : Outside} {job : HuntJob} {clients : List String}

theorem host_injective (request : HuntRequest) : Function.Injective request.host := by
  cases request with
  | create body => exact quote_injective
  | runNow id => exact Function.injective_id

theorem url_of_several (host : String → String) (htargets : ∀ c, job.targets ≠ .single c)
    (hreached : job.targets.reached out = clients) :
    job.url out host = if out.flowsOf job.artifact clients = [] then none
      else clients.head?.map fun c => hostUrl job.cfg (host c) := by
  obtain ⟨cfg, artifact, scope, targets⟩ := job
  subst hreached
  cases targets with
  | single c => exact absurd rfl (htargets c)
  | multi ids => rfl
  | all => rfl

theorem flowsOf_ne_nil_iff {artifact : String} :
    out.flowsOf artifact clients ≠ [] ↔ ∃ c ∈ clients, ∃ flow, out.flowOf artifact c = some flow := by
  constructor
  · intro h
    obtain ⟨flow, hflow⟩ := List.exists_mem_of_ne_nil _ h
    obtain ⟨c, hc, hstarts⟩ := List.mem_filterMap.mp hflow
    exact ⟨c, hc, flow, hstarts⟩
  · rintro ⟨c, hc, flow, hflow⟩
    exact List.ne_nil_of_mem (List.mem_filterMap.mpr ⟨c, hc, hflow⟩)

/-- **The id and the link are of one client exactly when** that client is the first one. -/
theorem sameClient_iff {hunt : DfirHunt} {host : String → String} (flow : String) (hinj : Function.Injective host)
    (hid : hunt.huntId = (out.flowsOf job.artifact clients).head?)
    (hurl : job.url out host = if out.flowsOf job.artifact clients = [] then none
      else clients.head?.map fun c => hostUrl job.cfg (host c)) :
    (∃ c ∈ clients, out.flowOf job.artifact c = some flow ∧ hunt.huntId = some flow ∧
        job.url out host = some (hostUrl job.cfg (host c))) ↔
      ∃ c, clients.head? = some c ∧ out.flowOf job.artifact c = some flow := by
  constructor
  · rintro ⟨c, hc, hflow, -, hlink⟩
    have hne := flowsOf_ne_nil_iff.mpr ⟨c, hc, flow, hflow⟩
    rw [hurl, if_neg hne] at hlink
    obtain ⟨first, hfirst, hsame⟩ := Option.map_eq_some_iff.mp hlink
    obtain rfl := hinj (hostUrl_injective job.cfg hsame)
    exact ⟨first, hfirst, hflow⟩
  · rintro ⟨c, hfirst, hflow⟩
    have hc := List.mem_of_mem_head? hfirst
    have hne := flowsOf_ne_nil_iff.mpr ⟨c, hc, flow, hflow⟩
    refine ⟨c, hc, hflow, ?_, ?_⟩
    · obtain ⟨rest, rfl⟩ := List.head?_eq_some_iff.mp hfirst
      rw [hid, Outside.flowsOf, List.filterMap_cons_some hflow]
      rfl
    · rw [hurl, if_neg hne, hfirst]
      rfl

/-- **The record of a hunt describes what was started exactly when** the first client starts a flow. -/
theorem recordDescribes_iff (out : Outside) (admin : Uuid) (desk : Desk) (request : HuntRequest) :
    RecordDescribes out admin desk request ↔ FirstStarts out desk request := by
  refine forall_congr' fun job => forall_congr' fun hjob => forall_congr' fun hscope => ?_
  have htargets := targets_ne_single hjob hscope
  cases hasked : job.targets.asked out with
  | none =>
    refine iff_of_true (fun record hrecord => ?_) fun clients h => by cases h
    obtain ⟨hid, hurl, hstatus⟩ := record_of_not_done hjob (collectHunt_of_not_asked job.artifact hasked) hrecord
    refine ⟨fun hcompleted => ?_, .inl ⟨hid, hurl⟩, fun flow hflow => ?_⟩
    · rw [hstatus] at hcompleted
      exact absurd hcompleted (by decide)
    · rw [hid] at hflow
      cases hflow
  | some clients =>
    obtain ⟨hdone, hreached⟩ := collectHunt_of_asked job.artifact desk htargets hasked
    obtain ⟨hunt, hrecord, hid, hstatus, hsame⟩ := record_of_done admin hjob hdone
    obtain ⟨hhunts, hconfig⟩ := hunts_after hrecord
    have hbuild := (build_congr out none hconfig).trans (build_of_job hjob)
    have hone := fun flow => sameClient_iff flow (host_injective request) hid
      (url_of_several request.host htargets hreached)
    constructor
    · intro h other hother
      obtain rfl := Option.some.inj hother
      obtain ⟨hstarted, hclient, hanswered⟩ := h _ hrecord
      rw [hreached] at hstarted hclient
      rcases hclient with ⟨hnone, -⟩ | ⟨c, hc, flow, hflow, hhuntId, hlink⟩
      · have hne := flowsOf_ne_nil_iff.mpr (hstarted hstatus)
        exact absurd (List.head?_eq_none_iff.mp (hid.symm.trans hnone)) hne
      · obtain ⟨first, hfirst, hstarts⟩ := (hone flow).mp ⟨c, hc, hflow, hhuntId, hlink⟩
        obtain ⟨hnew, huuid⟩ := (handled_iff hhunts hhuntId hbuild).mp (hanswered flow hhuntId)
        exact ⟨first, flow, hfirst, hstarts, hnew, hsame ▸ huuid⟩
    · intro h record hother
      obtain rfl := Option.some.inj (hrecord.symm.trans hother)
      obtain ⟨first, flow, hfirst, hstarts, hnew, huuid⟩ := h clients rfl
      obtain ⟨c, hc, hflow, hhuntId, hlink⟩ := (hone flow).mpr ⟨first, hfirst, hstarts⟩
      refine ⟨fun _ => ?_, .inr ?_, fun other hother => ?_⟩
      · rw [hreached]
        exact ⟨c, hc, flow, hflow⟩
      · rw [hreached]
        exact ⟨c, hc, flow, hflow, hhuntId, hlink⟩
      · obtain rfl := Option.some.inj (hhuntId.symm.trans hother)
        exact (handled_iff hhunts hhuntId hbuild).mpr ⟨hnew, hsame ▸ huuid⟩

end Describes

/-- Two machines with their clients. -/
def twoLinked : Desk := { exampleDesk with machines := [1, 2], links := [⟨1, "C.1"⟩, ⟨2, "C.2"⟩] }

/-- The first client cannot be asked. -/
def firstUnreachable : Outside :=
  { exampleOutside with
    collect := fun clientId _ => if clientId = "C.1" then .error (.velociraptor "client offline") else .ok "F.2" }

/-- A hunt for both machines. -/
def huntForBoth : DfirHuntCreate := ⟨"Generic.Client.Info", .multi, none, some [1, 2], none⟩

/-- **The link is of another client** than the flow, when the first collection fails. -/
theorem link_of_another_client : ¬∀ (out : Outside) (admin : Uuid) (desk : Desk) (request : HuntRequest),
    RecordDescribes out admin desk request := by
  intro h
  have hdescribes := h firstUnreachable 0 twoLinked (.create huntForBoth) _ rfl (by decide) _ rfl
  rcases hdescribes.sameClient with ⟨hnone, -⟩ | ⟨c, hc, flow, hflow, hhuntId, hurl⟩
  · cases hnone
  · have hclient : c ∈ ["C.1", "C.2"] := hc
    rcases List.mem_pair.mp hclient with rfl | rfl
    · cases hflow
    · have hquoted : quote "C.1" = quote "C.2" := hostUrl_injective _ (Option.some.inj hurl)
      exact absurd (quote_injective hquoted) (by decide)

end AssetInventory.Velociraptor

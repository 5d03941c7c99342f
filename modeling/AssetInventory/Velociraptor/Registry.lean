import AssetInventory.Lib.TwoStores
import AssetInventory.Velociraptor.Imports

/-!
# The registry of artifacts and the server

The definition of an artifact is kept in the table and on the Velociraptor server.  A request that changes it
pushes it to the server before it commits.  A new definition is flushed before the push, with the query for
the configuration, so that its row is locked by then; a push of the definition that the request has loaded is
not preceded by any statement.

* `pushArtifact`, `deleteArtifact`, `pushAndRecord`: the services.
* `uploadArtifact`, `updateArtifact`, `repushArtifact`, `deleteCustomArtifact`: the routes.
* `Mirrors`: the table agrees with the server.
* `accord`: what the two are to agree on, and what a statement has to find for it.
* `mirrors_of_runs`: in turn, the requests keep it so.
* `mirror_lost`: a push of a definition that is out of date, a deletion that races with an update, and a
  deletion of which the server does not tell how it went.
-/

namespace AssetInventory.Velociraptor.Registry

open PyJson PyTime Server Orm Interleaving

/-! ## The two stores -/

/-- What the table has under a name: the row, and whether the last deletion of the name was forced. -/
structure Slot where
  row : Option ArtifactRow
  removed : Option Bool

/-- A statement on the table. -/
inductive ArtifactWrite where
  | insert (name : String) (row : ArtifactRow)
  /-- The columns in which the object differs from what was loaded or flushed. -/
  | update (base cur : ArtifactRow)
  | delete (force : Bool)

/-- The row after an update. -/
def writeBack (base cur stored : ArtifactRow) : ArtifactRow where
  definitionYaml := pick base.definitionYaml cur.definitionYaml stored.definitionYaml
  sha256 := pick base.sha256 cur.sha256 stored.sha256
  artifactType := pick base.artifactType cur.artifactType stored.artifactType
  enabled := pick base.enabled cur.enabled stored.enabled
  supportedPlatforms := pick base.supportedPlatforms cur.supportedPlatforms stored.supportedPlatforms
  selectionPriority := pick base.selectionPriority cur.selectionPriority stored.selectionPriority
  lastPushStatus := pick base.lastPushStatus cur.lastPushStatus stored.lastPushStatus
  lastPushError := pick base.lastPushError cur.lastPushError stored.lastPushError
  createdBy := pick base.createdBy cur.createdBy stored.createdBy

/-- What a statement does.  An insert needs a name that is free and fits its column, an update needs the row;
a deletion that finds no row passes. -/
def ArtifactWrite.apply : ArtifactWrite → Slot → Option (Option Slot)
  | .insert name row, slot =>
    if slot.row = none ∧ name.length ≤ 255 then some (some { slot with row := some row }) else none
  | .update base cur, slot => slot.row.map fun row => some { slot with row := some (writeBack base cur row) }
  | .delete force, slot => some (slot.row.map fun _ => ⟨none, some force⟩)

/-- The queries that are run on the server. -/
inductive Vql where
  /-- Is there an artifact of the name? -/
  | artifactDefinitions
  /-- Is the name in the list of all artifacts `Custom.*`? -/
  | customArtifacts
  | artifactSet (definition : String)
  | artifactDelete

/-- What becomes of a query. -/
structure VqlOutcome where
  /-- The text of the `VelociraptorError`, if one is raised. -/
  error : Option String
  /-- The query takes effect.  A push that does not raise has taken effect. -/
  effect : Bool

/-- The server: the answer, and the definition afterwards. -/
def serveVql : Vql → VqlOutcome → Option String → Except String Bool × Option String
  | .artifactSet definition, x, stored =>
    match x.error with
    | none => (.ok true, some definition)
    | some e => (.error e, if x.effect then some definition else stored)
  | .artifactDelete, x, stored =>
    (match x.error with
      | none => .ok true
      | some e => .error e,
      if x.effect then none else stored)
  | _, x, stored =>
    (match x.error with
      | none => .ok stored.isSome
      | some e => .error e,
      stored)

/-- A query that has changed the definition, or says so. -/
def writesVql : Vql → VqlOutcome → Bool
  | .artifactSet _, x => x.error.isNone || x.effect
  | .artifactDelete, x => x.error.isNone || x.effect
  | _, _ => false

/-- The table and the server. -/
def stores : TwoStores.Stores Slot (Option String) ArtifactWrite Vql VqlOutcome (Except String Bool) where
  apply := ArtifactWrite.apply
  serve := serveVql
  writes := writesVql
  serve_of_not_writes c x stored h := by
    cases c with
    | artifactSet definition =>
      obtain ⟨herror, heffect⟩ := Bool.or_eq_false_iff.mp h
      cases hx : x.error with
      | none =>
        rw [hx] at herror
        cases herror
      | some e =>
        dsimp only [serveVql]
        rw [hx, heffect]
        rfl
    | artifactDelete =>
      have heffect := (Bool.or_eq_false_iff.mp h).2
      dsimp only [serveVql]
      rw [heffect]
      rfl
    | _ => rfl

/-- What a request is told of the client: whether there is one, and the exception of opening it. -/
structure ClientEnv where
  built : Except HttpError Bool
  opening : Option ClientExc

/-- A program of a request. -/
abbrev Work (α : Type) : Type :=
  TwoStores.Prog String Slot ArtifactWrite Vql (Except String Bool) ClientEnv α

/-! ## The services -/

/-- `_live_server_names`: whether the name is among them. -/
def liveServerName (name : String) : Work (Except HttpError Bool) := do
  let client ← TwoStores.Prog.answer
  match client.built, client.opening with
  | .error e, _ => return .error e
  | .ok true, none => do
    let listed ← TwoStores.Prog.request name .customArtifacts
    return .ok (listed.toOption.getD false)
  | _, _ => return .ok false

/-- `push_artifact`.  An `ArtifactPushError` or a `VelociraptorError` is its text. -/
def pushArtifact (spec : ArtifactSpec) : Work (Except String Unit) := do
  let existing ← TwoStores.Prog.request spec.name .artifactDefinitions
  match existing with
  | .error e => return .error e
  | .ok existing =>
    if existing && !startsWith "Custom." spec.name then
      return .error ("Artifact " ++ spec.name ++ " tồn tại và không thuộc namespace Custom.*")
    else do
      let done ← TwoStores.Prog.request spec.name (.artifactSet spec.definitionYaml)
      match done with
      | .error e => return .error ("Velociraptor từ chối artifact: " ++ e)
      | .ok _ => do
        let verified ← TwoStores.Prog.request spec.name .artifactDefinitions
        return match verified with
          | .error e => .error e
          | .ok true => .ok ()
          | .ok false => .error ("Velociraptor không nạp artifact " ++ spec.name ++ " sau khi push")

/-- How a deletion on the server fails. -/
inductive DeletionExc where
  /-- An `ArtifactDeleteError`. -/
  | artifactDelete (message : String)
  /-- A `VelociraptorError`. -/
  | velociraptor (message : String)

def deleteArtifact (name : String) : Work (Except DeletionExc Unit) :=
  if !startsWith "Custom." name then
    return .error (.artifactDelete "Chỉ cho phép xóa artifact thuộc namespace Custom.")
  else do
    let done ← TwoStores.Prog.request name .artifactDelete
    match done with
    | .error e => return .error (.artifactDelete ("Velociraptor từ chối xóa artifact: " ++ e))
    | .ok _ => do
      let verified ← TwoStores.Prog.request name .artifactDefinitions
      return match verified with
        | .error e => .error (.velociraptor e)
        | .ok true =>
          .error (.artifactDelete ("Velociraptor không xóa được artifact " ++ name ++ " sau lệnh xóa"))
        | .ok false => .ok ()

/-! ## The routes -/

/-- An exception that no route catches. -/
def serverError : HttpError := ⟨500, "Internal Server Error"⟩

/-- A flush: the columns that differ, if any do; `stamped` says that `updated_at` does. -/
def flushArtifact (base cur : ArtifactRow) (stamped : Bool) : Work Bool :=
  if cur = base ∧ stamped = false then return true
  else TwoStores.Prog.put (.update base cur)

/-- `_push_and_record`, once what has been assigned is flushed. -/
def pushFlushed (load : Loader) (cur : ArtifactRow) (definitionYaml : String) :
    Work (Except HttpError ArtifactRow) := do
  let client ← TwoStores.Prog.answer
  match client.built with
  | .error e => return .error e
  | .ok false => return .error ⟨400, "Chưa cấu hình Velociraptor (cần enabled + api_client.yaml mTLS)"⟩
  | .ok true =>
    match validateArtifactDefinition load definitionYaml with
    | .error (.validation message) => return .error ⟨422, message⟩
    | .error (.raised _) => return .error serverError
    | .ok spec =>
      if client.opening.isSome then return .error serverError
      else do
        let pushed ← pushArtifact spec
        match pushed with
        | .ok _ => return .ok { cur with lastPushStatus := some "pushed", lastPushError := none }
        | .error e => do
          let recorded ← flushArtifact cur
            { cur with lastPushStatus := some "failed", lastPushError := some (truncate 500 e) } true
          if recorded = false then return .error serverError
          else do
            TwoStores.Prog.publish
            return .error ⟨502, "Push artifact lên Velociraptor thất bại — xem last_push_error"⟩

/-- `_push_and_record`: the object afterwards, which has not been flushed.  The query for the configuration
flushes what has been assigned before. -/
def pushAndRecord (load : Loader) (base cur : ArtifactRow) (definitionYaml : String) :
    Work (Except HttpError ArtifactRow) := do
  let flushed ← flushArtifact base cur false
  if flushed = false then return .error serverError
  else pushFlushed load cur definitionYaml

/-- What a route returns. -/
inductive ArtifactReply where
  /-- `_to_out`, with the definition. -/
  | artifact (row : ArtifactRow) (onServer : Bool)
  | deleted (detail : String)

/-- The end of a route: `append_audit` flushes, and the commit. -/
def saveArtifact (name : String) (base cur : ArtifactRow) : Work (Except HttpError ArtifactReply) := do
  let flushed ← flushArtifact base cur true
  if flushed = false then return .error serverError
  else do
    TwoStores.Prog.publish
    let listed ← liveServerName name
    return listed.map (.artifact cur)

/-- A push, and the end of the route. -/
def pushAndSave (load : Loader) (name : String) (base cur : ArtifactRow) :
    Work (Except HttpError ArtifactReply) := do
  let pushed ← pushAndRecord load base cur cur.definitionYaml
  match pushed with
  | .error e => return .error e
  | .ok after => saveArtifact name cur after

/-- `VelociraptorArtifactUpload`. -/
structure ArtifactUpload where
  definitionYaml : String
  supportedPlatforms : List String
  selectionPriority : ℤ

def uploadArtifact (load : Loader) (body : ArtifactUpload) (admin : Uuid) :
    Work (Except HttpError ArtifactReply) :=
  match validateArtifactDefinition load body.definitionYaml with
  | .error (.validation message) => return .error ⟨422, message⟩
  | .error (.raised _) => return .error serverError
  | .ok spec => do
    let found ← TwoStores.Prog.query Slot.row
    match found with
    | none => do
      let row : ArtifactRow :=
        { definitionYaml := spec.definitionYaml
          sha256 := spec.sha256
          artifactType := spec.artifactType
          enabled := true
          supportedPlatforms := body.supportedPlatforms
          selectionPriority := body.selectionPriority
          lastPushStatus := none
          lastPushError := none
          createdBy := some admin }
      let inserted ← TwoStores.Prog.put (.insert spec.name row)
      if inserted = false then return .error serverError
      else pushAndSave load spec.name row row
    | some row =>
      pushAndSave load spec.name row
        { row with
          definitionYaml := spec.definitionYaml
          sha256 := spec.sha256
          artifactType := spec.artifactType
          supportedPlatforms := body.supportedPlatforms
          selectionPriority := body.selectionPriority }

/-- `VelociraptorArtifactUpdate`. -/
structure ArtifactUpdate where
  definitionYaml : Option String
  supportedPlatforms : Option (List String)
  selectionPriority : Option ℤ
  enabled : Option Bool

/-- The columns that an update changes besides the definition. -/
def ArtifactUpdate.assign (body : ArtifactUpdate) (row : ArtifactRow) : ArtifactRow :=
  { row with
    supportedPlatforms := body.supportedPlatforms.getD row.supportedPlatforms
    selectionPriority := body.selectionPriority.getD row.selectionPriority
    enabled := body.enabled.getD row.enabled }

/-- The answer for a name that the table does not have. -/
def notFound : HttpError := ⟨404, "Artifact không tồn tại trong DB"⟩

def updateArtifact (load : Loader) (name : String) (body : ArtifactUpdate) :
    Work (Except HttpError ArtifactReply) := do
  let found ← TwoStores.Prog.query Slot.row
  match found with
  | none => return .error notFound
  | some row =>
    match body.definitionYaml with
    | none => saveArtifact name row (body.assign row)
    | some definitionYaml =>
      match validateArtifactDefinition load definitionYaml with
      | .error (.validation message) => return .error ⟨422, message⟩
      | .error (.raised _) => return .error serverError
      | .ok spec =>
        if spec.name ≠ name then
          return .error ⟨400, "Không được đổi tên artifact từ '" ++ name ++ "' thành '" ++ spec.name ++
            "' qua PUT. Hãy tạo artifact mới."⟩
        else do
          let cur : ArtifactRow :=
            { row with
              definitionYaml := spec.definitionYaml
              sha256 := spec.sha256
              artifactType := spec.artifactType }
          let pushed ← pushAndRecord load row cur cur.definitionYaml
          match pushed with
          | .error e => return .error e
          | .ok after => saveArtifact name cur (body.assign after)

def repushArtifact (load : Loader) (name : String) : Work (Except HttpError ArtifactReply) := do
  let found ← TwoStores.Prog.query Slot.row
  match found with
  | none => return .error notFound
  | some row => pushAndSave load name row row

def deleteRow (name : String) (force : Bool) : Work (Except HttpError ArtifactReply) := do
  let _ ← TwoStores.Prog.put (.delete force)
  TwoStores.Prog.publish
  return .ok (.deleted ("Đã xóa artifact " ++ name))

def deleteCustomArtifact (name : String) (force : Bool) : Work (Except HttpError ArtifactReply) := do
  let found ← TwoStores.Prog.query Slot.row
  match found with
  | none => return .error notFound
  | some _ => do
    let client ← TwoStores.Prog.answer
    match client.built with
    | .error e => return .error e
    | .ok true =>
      if client.opening.isSome then return .error serverError
      else do
        let deleted ← deleteArtifact name
        match deleted with
        | .ok _ => deleteRow name force
        | .error (.velociraptor _) => return .error serverError
        | .error (.artifactDelete message) =>
          if force then deleteRow name force
          else return .error ⟨502, "Xóa artifact trên Velociraptor thất bại: " ++ message⟩
    | .ok false =>
      if force then deleteRow name force
      else return .error ⟨400,
        "Không thể kết nối Velociraptor để xóa. Thêm ?force=true nếu muốn chỉ xóa trong DB."⟩

inductive ArtifactRequest where
  | upload (body : ArtifactUpload) (admin : Uuid)
  | update (name : String) (body : ArtifactUpdate)
  | repush (name : String)
  | delete (name : String) (force : Bool)

/-- The name that a request is about; an upload whose definition is not valid is about none. -/
def ArtifactRequest.name (load : Loader) : ArtifactRequest → String
  | .upload body _ =>
    match validateArtifactDefinition load body.definitionYaml with
    | .ok spec => spec.name
    | .error _ => ""
  | .update name _ => name
  | .repush name => name
  | .delete name _ => name

/-- The routes. -/
def artifactHandler (load : Loader) (request : ArtifactRequest) :
    String × Work (Except HttpError ArtifactReply) :=
  (request.name load,
    match request with
    | .upload body admin => uploadArtifact load body admin
    | .update name body => updateArtifact load name body
    | .repush name => repushArtifact load name
    | .delete name force => deleteCustomArtifact name force)

/-- The table, the server, and the requests under way. -/
abbrev ArtifactWorld : Type :=
  TwoStores.World String Slot (Option String) ArtifactWrite Vql (Except String Bool) ClientEnv
    (Except HttpError ArtifactReply)

/-- The steps. -/
abbrev ArtifactAction : Type := TwoStores.Action ArtifactRequest ClientEnv VqlOutcome

/-- Requests at once. -/
def registryStep (load : Loader) : ArtifactWorld → ArtifactAction → Option ArtifactWorld :=
  TwoStores.step stores (artifactHandler load)

/-! ## What is expected -/

/-- **The table agrees with the server** when no request is under way: what has been pushed is what the
server has, and what has been deleted without force is not there any more. -/
def Mirrors (w : ArtifactWorld) : Prop :=
  (∀ p, w.sessions.get p = none) →
    (∀ name row, (w.rows name).row = some row → row.lastPushStatus = some "pushed" →
      w.entries name = some row.definitionYaml) ∧
    ∀ name, (w.rows name).removed = some false → (w.rows name).row = none → w.entries name = none

/-! ## The condition -/

/-- What a statement has to find.

* An update that leaves the row as pushed, of a request that has written to the server, finds the definition
  that the server has.
* An update with a new definition, of a request that has loaded a failed push, does not find one that has
  come off.
* A deletion that does not find the row has changed nothing on the server. -/
def Finds : ArtifactWrite → Slot → Option (Option String × Option String) → Prop
  | .insert _ _, _, _ => True
  | .update base cur, slot, window => ∀ row ∈ slot.row,
      ((writeBack base cur row).lastPushStatus = some "pushed" → ∀ y ∈ window, y.2 = some row.definitionYaml) ∧
      (cur.definitionYaml ≠ base.definitionYaml → base.lastPushStatus = some "failed" →
        row.lastPushStatus ≠ some "pushed")
  | .delete _, slot, window => slot.row = none → ∀ y ∈ window, y.1 = y.2

def Defines (load : Loader) (name definitionYaml : String) : Prop :=
  ∃ spec, validateArtifactDefinition load definitionYaml = .ok spec ∧ spec.name = name

/-- What the table and the server are to agree on. -/
def accord (load : Loader) : TwoStores.Accord String Slot (Option String) ArtifactWrite where
  good name slot := ∀ row ∈ slot.row, Defines load name row.definitionYaml
  agree slot stored :=
    (∀ row, slot.row = some row → row.lastPushStatus = some "pushed" → stored = some row.definitionYaml) ∧
      (slot.removed = some false → slot.row = none → stored = none)
  finds := Finds

/-- **The condition**: a request writes to the server for a name when nobody else has done so and is not over;
it does not end without a commit when it has changed anything there; and the statements find what they have
to find. -/
def Orderly (load : Loader) : ArtifactWorld → ArtifactAction → Prop := TwoStores.InTurn stores (accord load)

/-! ## The requests on their own -/

section Sound

variable {load : Loader} {name : String} {base cur : ArtifactRow} {held : Option (Slot × Slot)}
  {window : Option (Option String × Option String)} {α : Type}
  {Q : α → Option (Slot × Slot) → Option (Option String × Option String) → Prop}

theorem definition_of_validate {load : Loader} {text : String} {spec : ArtifactSpec}
    (h : validateArtifactDefinition load text = .ok spec) : spec.definitionYaml = text := by
  unfold validateArtifactDefinition at h
  split at h
  · cases h
  · split at h
    · cases h
    · cases h
    · split at h
      · dsimp only at h
        split_ifs at h with hblank hmatches htools
        · split at h
          · cases h
          · cases h
        · split at h
          · cases h
          · split at h
            · split at h
              · cases h
              · cases h
                rfl
            · cases h
      · cases h
    · cases h

/-- An update gives the row the definition that it writes, or leaves it the one it has. -/
theorem Defines.writeBack {row : ArtifactRow} (hrow : Defines load name row.definitionYaml)
    (hcur : Defines load name cur.definitionYaml) :
    Defines load name (writeBack base cur row).definitionYaml := by
  rcases pick_cases base.definitionYaml cur.definitionYaml row.definitionYaml with ⟨-, h⟩ | ⟨-, h⟩
  · show Defines load name (pick _ _ _)
    rw [h]
    exact hrow
  · show Defines load name (pick _ _ _)
    rw [h]
    exact hcur

theorem sound_flushArtifact {stamped : Bool} {f : Bool → Work α} (hcur : Defines load name cur.definitionYaml)
    (hsame : cur = base → stamped = false → (f true).Sound stores (accord load) name Q held window)
    (hgone : (f false).Sound stores (accord load) name Q held window)
    (hwritten : ¬ (cur = base ∧ stamped = false) → ∀ c s row, TwoStores.Reads ((accord load).good name) held c s → s.row = some row →
      Finds (.update base cur) s window → (f true).Sound stores (accord load) name Q
        (some (c, { s with row := some (writeBack base cur row) })) window) :
    (flushArtifact base cur stamped >>= f).Sound stores (accord load) name Q held window := by
  unfold flushArtifact
  by_cases hnothing : cur = base ∧ stamped = false
  · rw [if_pos hnothing]
    exact hsame hnothing.1 hnothing.2
  · rw [if_neg hnothing]
    refine TwoStores.sound_put (fun _ _ _ _ _ => hgone) (fun c s hs _ happly => ?_)
      fun c s r hs hfinds happly => ?_
    · obtain ⟨row, -, hrow⟩ := Option.map_eq_some_iff.mp happly
      cases hrow
    · obtain ⟨row, hrow, hr⟩ := Option.map_eq_some_iff.mp happly
      obtain rfl := Option.some.inj hr
      refine ⟨fun row' hrow' => ?_, hwritten hnothing c s row hs hrow hfinds⟩
      obtain rfl := Option.some.inj hrow'
      exact (hs.seen row hrow).writeBack hcur

/-! ### The push -/

/-- Where a flush lets a push stand that has come off, it is of the definition that the row has had. -/
def Uncovered (cur : ArtifactRow) (held : Option (Slot × Slot)) : Prop :=
  ∀ c s, held = some (c, s) → cur.lastPushStatus = some "failed" → ∀ row, s.row = some row →
    row.lastPushStatus = some "pushed" →
    ∃ old, c.row = some old ∧ old.lastPushStatus = some "pushed" ∧ old.definitionYaml = row.definitionYaml

variable {stored : Option String}

/-- The row and the server after an update that leaves the definition alone. -/
theorem agree_update {c s : Slot} {row : ArtifactRow} {b : Option String}
    (hfinds : Finds (.update base cur) s window) (hrow : s.row = some row)
    (hsame : cur.definitionYaml = base.definitionYaml) (hknows : TwoStores.Knows window b stored)
    (hkept : window = none → (writeBack base cur row).lastPushStatus = some "pushed" →
      ∃ old, c.row = some old ∧ old.lastPushStatus = some "pushed" ∧
        old.definitionYaml = row.definitionYaml) (h : (accord load).agree c b) :
    (accord load).agree { s with row := some (writeBack base cur row) } stored := by
  refine ⟨fun row' hrow' hpushed => ?_, fun _ hnone => by cases hnone⟩
  obtain rfl := Option.some.inj hrow'
  have hdefinition : (writeBack base cur row).definitionYaml = row.definitionYaml := by
    show pick _ _ _ = _
    rw [hsame, pick_same]
  rw [hdefinition]
  cases window with
  | none =>
    obtain rfl : b = stored := hknows
    obtain ⟨old, hold, hstatus, hyaml⟩ := hkept rfl hpushed
    rw [← hyaml]
    exact h.1 old hold hstatus
  | some y =>
    obtain rfl : y = (b, stored) := hknows
    exact (hfinds row hrow).1 hpushed _ rfl

theorem writes_of_artifactSet {definition : String} {x : VqlOutcome} {done : Bool}
    (h : (serveVql (.artifactSet definition) x stored).1 = .ok done) :
    writesVql (.artifactSet definition) x = true := by
  cases herror : x.error with
  | none =>
    dsimp only [writesVql]
    rw [herror]
    rfl
  | some e =>
    dsimp only [serveVql] at h
    rw [herror] at h
    cases h

theorem writes_of_artifactDelete {x : VqlOutcome} {done : Bool}
    (h : (serveVql .artifactDelete x stored).1 = .ok done) : writesVql .artifactDelete x = true := by
  cases herror : x.error with
  | none =>
    dsimp only [writesVql]
    rw [herror]
    rfl
  | some e =>
    dsimp only [serveVql] at h
    rw [herror] at h
    cases h

theorem stored_of_artifactDefinitions {x : VqlOutcome}
    (h : (serveVql .artifactDefinitions x stored).1 = .ok false) : stored = none := by
  dsimp only [serveVql] at h
  cases herror : x.error with
  | none =>
    rw [herror] at h
    exact Option.isSome_eq_false_iff.mp (Except.ok.inj h) |> Option.isNone_iff_eq_none.mp
  | some e =>
    rw [herror] at h
    cases h

theorem sound_pushArtifact (spec : ArtifactSpec) :
    (pushArtifact spec).Sound stores (accord load) spec.name
      (fun result held' window' => held' = held ∧ ((∃ done, result = .ok done) → window' ≠ none))
      held window := by
  have hfails : ∀ (e : String) {window' : Option (Option String × Option String)},
      held = held ∧ ((∃ done, (.error e : Except String Unit) = .ok done) → window' ≠ none) := by
    refine fun e _ => ⟨rfl, ?_⟩
    rintro ⟨_, hdone⟩
    cases hdone
  unfold pushArtifact
  refine TwoStores.sound_request_reads (fun _ => rfl) fun x b stored _ => ?_
  cases (stores.serve .artifactDefinitions x stored).1 with
  | error e => exact hfails e
  | ok existing =>
    dsimp only
    split_ifs
    · exact hfails _
    · refine TwoStores.sound_request fun x b stored _ => ?_
      cases hdone : (stores.serve (.artifactSet spec.definitionYaml) x stored).1 with
      | error e => exact hfails _
      | ok done =>
        have hwrites : stores.writes (.artifactSet spec.definitionYaml) x = true := writes_of_artifactSet hdone
        rw [if_pos hwrites]
        exact TwoStores.sound_request_reads (fun _ => rfl) fun _ _ _ _ => ⟨rfl, fun _ => Option.some_ne_none _⟩

/-- A push that has been marked. -/
def Pushed (cur : ArtifactRow) (result : Except HttpError ArtifactRow) (_ : Option (Slot × Slot))
    (window : Option (Option String × Option String)) : Prop :=
  ∀ after, result = .ok after →
    after = { cur with lastPushStatus := some "pushed", lastPushError := none } ∧ window ≠ none

theorem pushed_error (e : HttpError) : Pushed cur (.error e) held window := fun _ h => by cases h

theorem sound_pushFlushed (hcur : Defines load name cur.definitionYaml) (hheld : Uncovered cur held) :
    (pushFlushed load cur cur.definitionYaml).Sound stores (accord load) name (Pushed cur) held none := by
  unfold pushFlushed
  refine TwoStores.sound_answer fun client => ?_
  rcases client.built with e | built
  · exact pushed_error e
  cases built with
  | false => exact pushed_error _
  | true =>
    obtain ⟨spec, hspec, rfl⟩ := hcur
    dsimp only
    rw [hspec]
    dsimp only
    split_ifs
    · exact pushed_error _
    refine (sound_pushArtifact spec).bind fun result held' window' hpushed => ?_
    obtain ⟨rfl, hwindow⟩ := hpushed
    cases result with
    | ok done =>
      intro after hafter
      obtain rfl := Except.ok.inj hafter
      exact ⟨rfl, hwindow ⟨done, rfl⟩⟩
    | error e =>
      refine sound_flushArtifact ⟨spec, hspec, rfl⟩ (fun _ hstamped => by cases hstamped) (pushed_error _)
        fun _ c s row hs hrow hfinds => ?_
      refine TwoStores.sound_publish (fun c' s' b stored hs' hknows hagree => ?_) (pushed_error _)
      obtain ⟨rfl, rfl⟩ := Prod.mk.inj (hs'.locked _ rfl)
      refine agree_update hfinds hrow rfl hknows (fun _ hstill => ?_) hagree
      -- the failure has not been written: the object has been marked as failed before
      have hfailed : cur.lastPushStatus = some "failed" ∧ row.lastPushStatus = some "pushed" := by
        rcases pick_cases cur.lastPushStatus (some "failed") row.lastPushStatus with ⟨heq, hpick⟩ | ⟨-, hpick⟩
        · exact ⟨heq.symm, hpick.symm.trans hstill⟩
        · exact absurd (hpick.symm.trans hstill) (by decide)
      cases held' with
      | none =>
        obtain rfl := hs.unlocked rfl
        exact ⟨row, hrow, hfailed.2, rfl⟩
      | some x =>
        obtain rfl := hs.locked x rfl
        exact hheld c s rfl hfailed.1 row hrow hfailed.2

/-- **A push** ends with an object that is marked as pushed, and has written to the server. -/
theorem sound_pushAndRecord (hcur : Defines load name cur.definitionYaml)
    (hstatus : cur.lastPushStatus = base.lastPushStatus)
    (hheld : held = none ∨ cur = base ∧ Uncovered cur held) :
    (pushAndRecord load base cur cur.definitionYaml).Sound stores (accord load) name (Pushed cur) held none := by
  unfold pushAndRecord
  refine sound_flushArtifact hcur (fun _ _ => ?_) (pushed_error _) fun hwrites c s row hs hrow hfinds => ?_
  · refine sound_pushFlushed hcur ?_
    rcases hheld with rfl | ⟨-, hheld⟩
    · exact fun _ _ hnone => by cases hnone
    · exact hheld
  · refine sound_pushFlushed hcur fun c' s' heq hfailed row' hrow' hpushed => ?_
    obtain ⟨rfl, rfl⟩ := Prod.mk.inj (Option.some.inj heq)
    obtain rfl := Option.some.inj hrow'
    -- the row has been marked as pushed before, so that the definition is not a new one
    have hbefore : row.lastPushStatus = some "pushed" := by
      have hpick : (writeBack base cur row).lastPushStatus = row.lastPushStatus := by
        show pick _ _ _ = _
        rw [hstatus, pick_same]
      exact hpick.symm.trans hpushed
    have hsame : cur.definitionYaml = base.definitionYaml := by
      by_contra hnew
      exact (hfinds row hrow).2 hnew (hstatus.symm.trans hfailed) hbefore
    have hnone : held = none := hheld.resolve_right fun hboth => hwrites ⟨hboth.1, rfl⟩
    obtain rfl := hs.unlocked hnone
    refine ⟨row, hrow, hbefore, ?_⟩
    show row.definitionYaml = pick _ _ _
    rw [hsame, pick_same]

/-! ### The routes -/

theorem sound_liveServerName : (liveServerName name).Sound stores (accord load) name TwoStores.anyEnd
    held window := by
  unfold liveServerName
  refine TwoStores.sound_answer fun client => ?_
  split
  · trivial
  · exact TwoStores.sound_request_reads (fun _ => rfl) fun _ _ _ _ => trivial
  · trivial

theorem sound_saveArtifact (hcur : Defines load name cur.definitionYaml)
    (hsame : cur.definitionYaml = base.definitionYaml)
    (hkept : window ≠ none ∨ held = none ∧ cur.lastPushStatus = base.lastPushStatus) :
    (saveArtifact name base cur).Sound stores (accord load) name TwoStores.anyEnd held window := by
  unfold saveArtifact
  refine sound_flushArtifact hcur (fun _ hstamped => by cases hstamped) trivial fun _ c s row hs hrow hfinds => ?_
  refine TwoStores.sound_publish (fun c' s' b stored hs' hknows hagree => ?_) ?_
  · obtain ⟨rfl, rfl⟩ := Prod.mk.inj (hs'.locked _ rfl)
    refine agree_update hfinds hrow hsame hknows (fun hnone hpushed => ?_) hagree
    obtain ⟨hheld, hstatus⟩ := hkept.resolve_left fun hne => hne hnone
    obtain rfl := hs.unlocked hheld
    refine ⟨row, hrow, ?_, rfl⟩
    have hpick : (writeBack base cur row).lastPushStatus = row.lastPushStatus := by
      show pick _ _ _ = _
      rw [hstatus, pick_same]
    exact hpick.symm.trans hpushed
  · exact sound_liveServerName.bind fun _ _ _ _ => trivial

theorem sound_pushAndSave (hcur : Defines load name cur.definitionYaml)
    (hstatus : cur.lastPushStatus = base.lastPushStatus)
    (hheld : held = none ∨ cur = base ∧ Uncovered cur held) :
    (pushAndSave load name base cur).Sound stores (accord load) name TwoStores.anyEnd held none := by
  unfold pushAndSave
  refine (sound_pushAndRecord hcur hstatus hheld).bind fun result held' window' hpushed => ?_
  cases result with
  | error e => trivial
  | ok after =>
    obtain ⟨rfl, hwindow⟩ := hpushed after rfl
    exact sound_saveArtifact hcur rfl (.inl hwindow)

theorem sound_uploadArtifact (body : ArtifactUpload) (admin : Uuid) :
    (uploadArtifact load body admin).Sound stores (accord load)
      ((ArtifactRequest.upload body admin).name load) TwoStores.anyEnd none none := by
  unfold uploadArtifact
  cases hvalid : validateArtifactDefinition load body.definitionYaml with
  | error e => cases e <;> trivial
  | ok spec =>
    have hname : (ArtifactRequest.upload body admin).name load = spec.name := by
      dsimp only [ArtifactRequest.name]
      rw [hvalid]
    rw [hname]
    have hdefines : Defines load spec.name spec.definitionYaml := by
      rw [definition_of_validate hvalid]
      exact ⟨spec, hvalid, rfl⟩
    refine TwoStores.sound_query _ fun c s hs => ?_
    cases s.row with
    | some row =>
      refine sound_pushAndSave ?_ rfl (.inl rfl)
      exact hdefines
    | none =>
      refine TwoStores.sound_put (fun _ _ _ _ _ => trivial) (fun c s _ _ happly => ?_)
        fun c s r _ _ happly => ?_
      · have hcases : (if _ then _ else _ : Option (Option Slot)) = some none := happly
        split_ifs at hcases
        cases hcases
      · have hcases : (if _ then _ else _ : Option (Option Slot)) = some (some r) := happly
        split_ifs at hcases with hfree
        obtain rfl := Option.some.inj (Option.some.inj hcases)
        refine ⟨fun row hrow => ?_, ?_⟩
        · obtain rfl := Option.some.inj hrow
          exact hdefines
        · refine sound_pushAndSave ?_ rfl (.inr ⟨rfl, fun c' s' _ hfailed => ?_⟩)
          · exact hdefines
          · -- a new row has not been pushed
            cases hfailed

theorem sound_updateArtifact (body : ArtifactUpdate) :
    (updateArtifact load name body).Sound stores (accord load) name TwoStores.anyEnd none none := by
  unfold updateArtifact
  refine TwoStores.sound_query _ fun c s hs => ?_
  cases hrow : s.row with
  | none => trivial
  | some row =>
    have hold : Defines load name row.definitionYaml := hs.seen row hrow
    dsimp only
    cases body.definitionYaml with
    | none => exact sound_saveArtifact hold rfl (.inr ⟨rfl, rfl⟩)
    | some definitionYaml =>
      dsimp only
      cases hvalid : validateArtifactDefinition load definitionYaml with
      | error e => cases e <;> trivial
      | ok spec =>
        dsimp only
        split_ifs with hname
        · trivial
        · have hdefines : Defines load name spec.definitionYaml := by
            rw [definition_of_validate hvalid]
            exact ⟨spec, hvalid, not_not.mp hname⟩
          refine TwoStores.Prog.Sound.bind (sound_pushAndRecord ?_ rfl (.inl rfl))
            fun result held' window' hpushed => ?_
          · exact hdefines
          cases result with
          | error e => trivial
          | ok after =>
            obtain ⟨rfl, hwindow⟩ := hpushed after rfl
            refine sound_saveArtifact ?_ rfl (.inl hwindow)
            exact hdefines

theorem sound_repushArtifact :
    (repushArtifact load name).Sound stores (accord load) name TwoStores.anyEnd none none := by
  unfold repushArtifact
  refine TwoStores.sound_query _ fun c s hs => ?_
  cases hrow : s.row with
  | none => trivial
  | some row => exact sound_pushAndSave (hs.seen row hrow) rfl (.inl rfl)

theorem sound_deleteArtifact : (deleteArtifact name).Sound stores (accord load) name
      (fun result held' window' => held' = held ∧
        ((∃ done, result = .ok done) → ∃ before, window' = some (before, none))) held window := by
  have hfails : ∀ (e : DeletionExc) {window' : Option (Option String × Option String)},
      held = held ∧ ((∃ done, (.error e : Except DeletionExc Unit) = .ok done) →
        ∃ before, window' = some (before, none)) := by
    refine fun e _ => ⟨rfl, ?_⟩
    rintro ⟨_, hdone⟩
    cases hdone
  unfold deleteArtifact
  split_ifs
  · exact hfails _
  · refine TwoStores.sound_request fun x b stored _ => ?_
    cases hdone : (stores.serve .artifactDelete x stored).1 with
    | error e => exact hfails _
    | ok done =>
      have hwrites : stores.writes .artifactDelete x = true := writes_of_artifactDelete hdone
      rw [if_pos hwrites]
      refine TwoStores.sound_request_reads (fun _ => rfl) fun x' b' stored' hknows => ?_
      obtain ⟨rfl, rfl⟩ := Prod.mk.inj hknows
      cases hverified : (stores.serve .artifactDefinitions x' (stores.serve .artifactDelete x stored).2).1 with
      | error e => exact hfails _
      | ok found =>
        cases found with
        | true => exact hfails _
        | false =>
          refine ⟨rfl, fun _ => ⟨b, ?_⟩⟩
          rw [stored_of_artifactDefinitions hverified]

theorem sound_deleteRow {force : Bool} (hgone : force = false → ∃ before, window = some (before, none)) :
    (deleteRow name force).Sound stores (accord load) name TwoStores.anyEnd none window := by
  unfold deleteRow
  refine TwoStores.sound_put (fun _ _ _ _ _ => ?_) (fun c s hs hfinds happly => ?_)
    fun c s r hs hfinds happly => ?_
  · exact absurd ‹_› (Option.some_ne_none _)
  · -- the row is not there any more: nothing may have changed on the server
    have hnone : s.row = none := by
      cases hrow : s.row with
      | none => rfl
      | some row =>
        have hcases : some (s.row.map fun _ => (⟨none, some force⟩ : Slot)) = some none := happly
        rw [hrow] at hcases
        cases hcases
    refine TwoStores.sound_publish (fun c' s' b stored hs' hknows hagree => ?_) trivial
    obtain rfl := hs'.unlocked rfl
    have hsame : b = stored := by
      cases window with
      | none => exact hknows
      | some y =>
        obtain rfl : y = (b, stored) := hknows
        exact hfinds hnone _ rfl
    rw [← hsame]
    exact hagree
  · have hcases : some (s.row.map fun _ => (⟨none, some force⟩ : Slot)) = some (some r) := happly
    obtain ⟨row, -, rfl⟩ := Option.map_eq_some_iff.mp (Option.some.inj hcases)
    refine ⟨(fun _ hrow => by cases hrow), ?_⟩
    refine TwoStores.sound_publish (fun c' s' b stored hs' hknows hagree => ?_) trivial
    obtain ⟨rfl, rfl⟩ := Prod.mk.inj (hs'.locked _ rfl)
    refine ⟨(fun _ hrow => by cases hrow), fun hforce _ => ?_⟩
    obtain ⟨before, rfl⟩ := hgone (Option.some.inj hforce)
    exact (Prod.mk.inj hknows).2.symm

theorem sound_deleteCustomArtifact (force : Bool) :
    (deleteCustomArtifact name force).Sound stores (accord load) name TwoStores.anyEnd none none := by
  unfold deleteCustomArtifact
  refine TwoStores.sound_query _ fun c s hs => ?_
  cases s.row with
  | none => trivial
  | some row =>
    refine TwoStores.sound_answer fun client => ?_
    rcases client.built with e | built
    · trivial
    cases built with
    | true =>
      dsimp only
      by_cases hopening : client.opening.isSome = true
      · rw [if_pos hopening]
        trivial
      rw [if_neg hopening]
      refine sound_deleteArtifact.bind fun result held' window' hdeleted => ?_
      obtain ⟨rfl, hgone⟩ := hdeleted
      cases result with
      | ok done => exact sound_deleteRow fun _ => hgone ⟨done, rfl⟩
      | error e =>
        cases e with
        | velociraptor message => trivial
        | artifactDelete message =>
          cases force with
          | true => exact sound_deleteRow fun hnot => by cases hnot
          | false => trivial
    | false =>
      cases force with
      | true => exact sound_deleteRow fun hnot => by cases hnot
      | false => trivial

/-- **Every request**, on its own, leaves the table in accord with the server. -/
theorem sound_artifactHandler (load : Loader) (request : ArtifactRequest) :
    (artifactHandler load request).2.Sound stores (accord load) (artifactHandler load request).1
      TwoStores.anyEnd none none := by
  cases request with
  | upload body admin => exact sound_uploadArtifact body admin
  | update name body => exact sound_updateArtifact body
  | repush name => exact sound_repushArtifact
  | delete name force => exact sound_deleteCustomArtifact force

end Sound

instance (write : ArtifactWrite) (slot : Slot) (window : Option (Option String × Option String)) :
    Decidable (Finds write slot window) := by
  cases write <;> unfold Finds <;> infer_instance

instance (load : Loader) (write : ArtifactWrite) (slot : Slot)
    (window : Option (Option String × Option String)) : Decidable ((accord load).finds write slot window) :=
  inferInstanceAs (Decidable (Finds write slot window))

instance (load : Loader) (w : ArtifactWorld) (a : ArtifactAction) : Decidable (Orderly load w a) :=
  inferInstanceAs (Decidable (TwoStores.InTurn stores (accord load) w a))

/-- The artifact. -/
def exampleName : String := "Custom.Linux.Info"

def exampleRow : ArtifactRow where
  definitionYaml := "d1"
  sha256 := "d1"
  artifactType := "CLIENT"
  enabled := true
  supportedPlatforms := ["linux"]
  selectionPriority := 100
  lastPushStatus := some "pushed"
  lastPushError := none
  createdBy := none

/-- The table has the artifact, and so has the server. -/
def exampleWorld : ArtifactWorld :=
  .start (fun name => ⟨if name = exampleName then some exampleRow else none, none⟩)
    fun name => if name = exampleName then some "d1" else none

/-- The next statements of a request; the server does what it is told. -/
def goOn (p : ℕ) (statements : ℕ) : List ArtifactAction :=
  List.replicate statements (.run p ⟨.ok true, none⟩ ⟨none, true⟩)

def newDefinition (text : String) : ArtifactRequest := .update exampleName ⟨some text, none, none, none⟩

theorem sessions_eq_none {w : ArtifactWorld} (h : w.sessions.keys = []) (p : ℕ) : w.sessions.get p = none := by
  cases hp : w.sessions.get p with
  | none => rfl
  | some s =>
    have hmem := RowStore.Table.mem_keys_of_get hp
    rw [h] at hmem
    exact absurd hmem List.not_mem_nil

theorem mirrors_exampleWorld : Mirrors exampleWorld := by
  refine fun _ => ⟨fun name row hrow hpushed => ?_, fun name hremoved => by cases hremoved⟩
  have hrow' : (if name = exampleName then some exampleRow else none) = some row := hrow
  show (if name = exampleName then some "d1" else none) = _
  split_ifs at hrow' ⊢ with hname
  obtain rfl := Option.some.inj hrow'
  rfl

theorem defines_exampleWorld {name : String} {row : ArtifactRow}
    (h : (exampleWorld.rows name).row = some row) : Defines linuxLoader name row.definitionYaml := by
  have hrow : (if name = exampleName then some exampleRow else none) = some row := h
  split_ifs at hrow with hname
  obtain rfl := Option.some.inj hrow
  rw [hname]
  have hvalid : ((validateArtifactDefinition linuxLoader "d1").toOption.map ArtifactSpec.name) =
      some exampleName := by
    decide +kernel
  obtain ⟨spec, hspec, hspecname⟩ := Option.map_eq_some_iff.mp hvalid
  refine ⟨spec, ?_, hspecname⟩
  show validateArtifactDefinition linuxLoader "d1" = .ok spec
  cases hok : validateArtifactDefinition linuxLoader "d1" with
  | error e =>
    rw [hok] at hspec
    cases hspec
  | ok spec' =>
    rw [hok] at hspec
    exact congrArg Except.ok (Option.some.inj hspec)

end AssetInventory.Velociraptor.Registry

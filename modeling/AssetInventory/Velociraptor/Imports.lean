import AssetInventory.Velociraptor.Allowlist

/-!
# The two imports of artifacts

The artifacts of the Velociraptor server are imported by a button, and by a task that starts when the
configuration has been saved.  Both merge the artifacts into the table by name.

* `validateArtifactDefinition`: what a definition has to be.
* `importArtifacts`: one pass over the artifacts of the server; `syncArtifactsFromServer` and
  `triggerAutoSyncPull` are the two imports.
* `fetch_importArtifacts`: what a pass does to one name depends on the artifacts of that name only.
* `NameAgrees`: a new artifact runs on Windows only, and an old one has been pushed or has changed.
* `imports_agree_iff`: the two imports leave the same rows exactly when all names agree.
* `imports_differ`: an artifact for Linux that the table does not have.
-/

namespace AssetInventory.Velociraptor

open PyJson RowStore Server

/-! ## Definitions -/

/-- What YAML gives: a text, a list, a mapping, nothing, or something else. -/
inductive Yaml where
  | null
  | str (text : String)
  | list (items : List Yaml)
  | mapping (entries : List (Yaml × Yaml))
  | other

/-- `mapping.get(key)` for a key that is a text. -/
def yamlGet (key : String) (entries : List (Yaml × Yaml)) : Option Yaml :=
  (entries.find? fun entry => match entry.1 with
    | .str text => text == key
    | _ => false).map Prod.snd

/-- An exception of `yaml.safe_load`. -/
inductive YamlExc where
  /-- A `YAMLError`, with the name of its type. -/
  | yamlError (type : String)
  | other (message : String)

/-- The parser and the hash. -/
structure Loader where
  safeLoad : String → Except YamlExc Yaml
  /-- `hashlib.sha256(text.encode("utf-8")).hexdigest()`. -/
  sha256 : String → String

structure ArtifactSpec where
  name : String
  artifactType : String
  definitionYaml : String
  sha256 : String
  deriving DecidableEq

/-- How the validation of a definition fails. -/
inductive DefinitionExc where
  /-- An `ArtifactValidationError`. -/
  | validation (message : String)
  | raised (message : String)

def maxDefinitionBytes : ℕ := 262144

/-- `_NAME_RE`. -/
def nameMatches (name : String) : Bool :=
  startsWith "Custom." name &&
    (split '.' (dropPrefix "Custom." name)).all fun part =>
      part ≠ "" && part.toList.all fun c => c.isAlphanum || c == '_'

/-- `str.upper` of a character, as far as it gives letters of ASCII. -/
def upperChar (c : Char) : List Char :=
  match c.toNat with
  | 0xdf => "SS".toList
  | 0x131 => "I".toList
  | 0x17f => "S".toList
  | 0xfb00 => "FF".toList
  | 0xfb01 => "FI".toList
  | 0xfb02 => "FL".toList
  | 0xfb03 => "FFI".toList
  | 0xfb04 => "FFL".toList
  | 0xfb05 => "ST".toList
  | 0xfb06 => "ST".toList
  | _ => [c.toUpper]

/-- `str.lower` of a character, as far as it gives letters of ASCII. -/
def lowerChar (c : Char) : List Char :=
  match c.toNat with
  | 0x130 => ['i', Char.ofNat 0x307]
  | 0x212a => ['k']
  | _ => [c.toLower]

/-- The type of an artifact, if it is an allowed one. -/
def artifactTypeOf (rawType : Yaml) : Option String :=
  match rawType with
  | .str text =>
    let type := String.ofList ((strip text).toList.flatMap upperChar)
    if type ∈ ["CLIENT", "CLIENT_EVENT", "SERVER", "SERVER_EVENT"] then some type else none
  | _ => none

/-- `q` is a text. -/
def Yaml.isStr : Yaml → Bool
  | .str _ => true
  | _ => false

/-- `None` for a key that is missing. -/
def orNull (value : Option Yaml) : Yaml := value.getD .null

/-- What is wrong with an entry of `sources`. -/
def sourceError : Yaml → Option String
  | .mapping source =>
    match orNull (yamlGet "queries" source), orNull (yamlGet "query" source) with
    | .null, .null => some "Mỗi `sources` entry phải có `query` hoặc `queries`"
    | queries, query =>
      match queries with
      | .null => queryError query
      | .list items =>
        if items.all Yaml.isStr then queryError query else some "`queries` phải là danh sách chuỗi VQL"
      | _ => some "`queries` phải là danh sách chuỗi VQL"
  | _ => some "Mỗi `sources` entry phải là mapping"
where
  /-- The check of `query`. -/
  queryError : Yaml → Option String
    | .null => none
    | .str _ => none
    | _ => some "`query` phải là chuỗi VQL"

def validateArtifactDefinition (load : Loader) (text : String) : Except DefinitionExc ArtifactSpec :=
  if text = "" ∨ maxDefinitionBytes < text.utf8ByteSize then
    .error (.validation "Artifact YAML phải có kích thước 1 byte đến 256KB")
  else
    match load.safeLoad text with
    | .error (.yamlError type) => .error (.validation ("Artifact YAML không parse được: " ++ type))
    | .error (.other message) => .error (.raised message)
    | .ok (.mapping doc) =>
      match yamlGet "name" doc with
      | some (.str name) =>
        let name := strip name
        if name = "" then .error (.validation "Artifact thiếu trường `name`")
        else if !nameMatches name then
          .error (.validation
            "Tên artifact phải thuộc namespace Custom.* và chỉ gồm chữ, số, gạch dưới, dấu chấm")
        else
          match artifactTypeOf ((yamlGet "type" doc).getD (.str "CLIENT")) with
          | none =>
            .error (.validation "Trường `type` phải là CLIENT, CLIENT_EVENT, SERVER hoặc SERVER_EVENT")
          | some artifactType =>
            if (yamlGet "tools" doc).isSome then
              .error (.validation "Artifact có section `tools:` (tải binary ngoài) không được chấp nhận")
            else
              match yamlGet "sources" doc with
              | some (.list (source :: sources)) =>
                match (source :: sources).findSome? sourceError with
                | some message => .error (.validation message)
                | none => .ok ⟨name, artifactType, text, load.sha256 text⟩
              | _ => .error (.validation "Artifact phải có ít nhất một `sources` entry")
      | _ => .error (.validation "Artifact thiếu trường `name`")
    | .ok _ => .error (.validation "Artifact YAML phải là một mapping (key: value)")

/-! ## The table -/

/-- A row of `velociraptor_artifacts`; its key is its name, which is unique. -/
structure ArtifactRow where
  definitionYaml : String
  sha256 : String
  artifactType : String
  enabled : Bool
  supportedPlatforms : List String
  selectionPriority : ℤ
  lastPushStatus : Option String
  lastPushError : Option String
  createdBy : Option Uuid
  deriving DecidableEq

/-- The columns that decide which artifacts may be used. -/
def ArtifactRow.compared (row : ArtifactRow) : ArtifactRow :=
  { row with lastPushError := none, createdBy := none }

/-- A row of the answer of the server; a value that is no text is `none`. -/
structure ServerRow where
  name : Option String
  raw : Option String

/-- An artifact of the server. -/
structure ServerItem where
  name : String
  raw : String

/-- `pull_server_artifacts`: the artifacts of the rows. -/
def pullServerArtifacts (rows : List ServerRow) : List ServerItem :=
  rows.filterMap fun row =>
    match row.name, row.raw with
    | some name, some raw => if strip raw = "" then none else some ⟨name, raw⟩
    | _, _ => none

/-- The platforms that a definition names. -/
@[irreducible] def detectedPlatforms (raw : String) : List String :=
  let lowerYaml := String.ofList (raw.toList.flatMap lowerChar)
  let detected := (if contains "windows" lowerYaml then ["windows"] else []) ++
    (if contains "linux" lowerYaml then ["linux"] else []) ++
    (if contains "darwin" lowerYaml || contains "macos" lowerYaml then ["macos"] else [])
  if detected = [] then ["windows"] else detected

/-! ## The imports -/

/-- What an import does with a definition: the row for a new name, and the change of an old row. -/
structure Merge where
  added : String → ArtifactSpec → ArtifactRow
  seen : ArtifactSpec → ArtifactRow → ArtifactRow

/-- The table while an import runs, with its counts. -/
structure Importing where
  table : Table String ArtifactRow
  imported : ℕ
  updated : ℕ

/-- One artifact of an import.  A column for a name takes 255 characters. -/
def Importing.take (merge : Merge) (raw : String) (spec : ArtifactSpec) (sofar : Importing) :
    Except String Importing :=
  match sofar.table.get spec.name with
  | none =>
    if 255 < spec.name.length then .error "value too long for type character varying(255)"
    else .ok { sofar with
      table := sofar.table.insert spec.name (merge.added raw spec)
      imported := sofar.imported + 1 }
  | some row => .ok { sofar with
      table := sofar.table.modify spec.name (merge.seen spec)
      updated := if row.sha256 ≠ spec.sha256 then sofar.updated + 1 else sofar.updated }

/-- One pass over the artifacts; a definition that is not valid is passed over. -/
def importArtifacts (load : Loader) (merge : Merge) :
    List ServerItem → Importing → Except String Importing
  | [], sofar => .ok sofar
  | item :: items, sofar =>
    match validateArtifactDefinition load item.raw with
    | .error (.validation _) => importArtifacts load merge items sofar
    | .error (.raised message) => .error message
    | .ok spec => sofar.take merge item.raw spec >>= importArtifacts load merge items

/-- The rows of the import by hand. -/
def handMerge (admin : Uuid) : Merge where
  added raw spec :=
    { definitionYaml := spec.definitionYaml
      sha256 := spec.sha256
      artifactType := spec.artifactType
      enabled := true
      supportedPlatforms := detectedPlatforms raw
      selectionPriority := 100
      lastPushStatus := some "pushed"
      lastPushError := none
      createdBy := some admin }
  seen spec row :=
    if row.sha256 ≠ spec.sha256 then
      { row with
        definitionYaml := spec.definitionYaml
        sha256 := spec.sha256
        artifactType := spec.artifactType
        lastPushStatus := some "pushed"
        lastPushError := none }
    else { row with lastPushStatus := some "pushed", lastPushError := none }

/-- The rows of the import by the task. -/
def autoMerge : Merge where
  added _ spec :=
    { definitionYaml := spec.definitionYaml
      sha256 := spec.sha256
      artifactType := spec.artifactType
      enabled := true
      supportedPlatforms := ["windows"]
      selectionPriority := 100
      lastPushStatus := some "pushed"
      lastPushError := none
      createdBy := none }
  seen spec row :=
    if row.sha256 ≠ spec.sha256 then
      { row with
        definitionYaml := spec.definitionYaml
        sha256 := spec.sha256
        artifactType := spec.artifactType
        lastPushStatus := some "pushed" }
    else row

/-- `VelociraptorArtifactSyncOut`. -/
structure ArtifactSyncOut where
  imported : ℕ
  updated : ℕ
  totalOnServer : ℕ

def syncArtifactsFromServer (load : Loader) (out : Outside) (desk : Desk)
    (answer : Except ClientExc (List ServerRow)) (admin : Uuid) (table : Table String ArtifactRow) :
    Table String ArtifactRow × Except HttpError ArtifactSyncOut :=
  match buildVelociraptorClient out desk with
  | .error e => (table, .error e)
  | .ok none =>
    (table, .error ⟨400, "Chưa cấu hình Velociraptor (cần enabled + api_client.yaml mTLS)"⟩)
  | .ok (some _) =>
    match (out.opening.elim (.ok ()) Except.error : Except ClientExc Unit) >>= fun _ => answer with
    | .error e =>
      (table, .error ⟨502, "Không thể lấy danh sách artifact từ Velociraptor: " ++ e.message⟩)
    | .ok rows =>
      let items := pullServerArtifacts rows
      match importArtifacts load (handMerge admin) items ⟨table, 0, 0⟩ with
      | .error _ => (table, .error ⟨500, "Internal Server Error"⟩)
      | .ok after => (after.table, .ok ⟨after.imported, after.updated, items.length⟩)

/-- The pull of `_trigger_auto_sync_after_config`: a failure is logged, and the session is closed. -/
def triggerAutoSyncPull (load : Loader) (out : Outside) (desk : Desk)
    (answer : Except ClientExc (List ServerRow)) (table : Table String ArtifactRow) :
    Table String ArtifactRow :=
  match buildVelociraptorClient out desk with
  | .error _ => table
  | .ok none => table
  | .ok (some _) =>
    match (out.opening.elim (.ok ()) Except.error : Except ClientExc Unit) >>= fun _ => answer with
    | .error _ => table
    | .ok rows =>
      match importArtifacts load autoMerge (pullServerArtifacts rows) ⟨table, 0, 0⟩ with
      | .error _ => table
      | .ok after => after.table

/-! ## One name -/

section OneName

variable {load : Loader} {merge : Merge} {name raw : String} {spec : ArtifactSpec}
  {items : List ServerItem} {sofar after : Importing} {table : Table String ArtifactRow}

/-- The row of a name, after an artifact of this name. -/
def Merge.step (merge : Merge) : Option ArtifactRow → String × ArtifactSpec → Option ArtifactRow
  | none, taken => some (merge.added taken.1 taken.2)
  | some row, taken => some (merge.seen taken.2 row)

/-- The valid definitions of a name, with their sources. -/
def takenAs (load : Loader) (name : String) (items : List ServerItem) : List (String × ArtifactSpec) :=
  items.filterMap fun item =>
    match validateArtifactDefinition load item.raw with
    | .ok spec => if spec.name = name then some (item.raw, spec) else none
    | .error _ => none

/-- An import fails: a definition makes the parser fail, or a new name is too long. -/
def ImportFails (load : Loader) (items : List ServerItem) (table : Table String ArtifactRow) : Prop :=
  ∃ item ∈ items, (∃ message, validateArtifactDefinition load item.raw = .error (.raised message)) ∨
    ∃ spec, validateArtifactDefinition load item.raw = .ok spec ∧ table.get spec.name = none ∧
      255 < spec.name.length

theorem get_take (h : sofar.take merge raw spec = .ok after) : after.table.get name =
      if spec.name = name then merge.step (sofar.table.get name)
    (raw, spec) else sofar.table.get name := by
  unfold Importing.take at h
  split at h
  · rename_i hnone
    split at h
    · cases h
    · obtain rfl := Except.ok.inj h
      by_cases hname : spec.name = name
      · subst hname
        rw [if_pos rfl, hnone]
        exact Table.get_insert_self _ hnone
      · rw [if_neg hname]
        exact Table.get_insert_of_ne _ (Ne.symm hname)
  · rename_i row hrow
    obtain rfl := Except.ok.inj h
    by_cases hname : spec.name = name
    · subst hname
      rw [if_pos rfl, hrow]
      simp [Merge.step, hrow]
    · rw [if_neg hname]
      exact Table.get_modify_of_ne _ _ (Ne.symm hname)

theorem take_fails : (∃ e, sofar.take merge raw spec = .error e) ↔
    sofar.table.get spec.name = none ∧ 255 < spec.name.length := by
  unfold Importing.take
  cases hrow : sofar.table.get spec.name with
  | none => by_cases hlong : 255 < spec.name.length <;> simp [hlong]
  | some row => simp

/-- **A pass acts on every name by itself.** -/
theorem get_importArtifacts (h : importArtifacts load merge items sofar = .ok after) (name : String) :
    after.table.get name = (takenAs load name items).foldl merge.step (sofar.table.get name) := by
  induction items generalizing sofar with
  | nil =>
    obtain rfl := Except.ok.inj h
    rfl
  | cons item items ih =>
    rw [importArtifacts] at h
    rw [takenAs, List.filterMap_cons]
    cases hvalid : validateArtifactDefinition load item.raw with
    | error e =>
      rw [hvalid] at h
      cases e with
      | validation message => exact ih h
      | raised message => cases h
    | ok spec =>
      rw [hvalid] at h
      cases htake : sofar.take merge item.raw spec with
      | error e => simp [htake, bind, Except.bind] at h
      | ok next =>
        have hrest : importArtifacts load merge items next = .ok after := by
          simpa [htake, bind, Except.bind] using h
        have hnext := ih hrest
        rw [get_take htake] at hnext
        by_cases hname : spec.name = name
        · simpa [hname, takenAs] using hnext
        · simpa [hname, takenAs] using hnext

/-- An artifact that is taken leaves the later ones as able to fail as before. -/
theorem importFails_take (h : sofar.take merge raw spec = .ok after) :
    ImportFails load items after.table ↔ ImportFails load items sofar.table := by
  have hget : ∀ {n : String}, 255 < n.length →
      (after.table.get n = none ↔ sofar.table.get n = none) := by
    intro n hlong
    rw [get_take h]
    by_cases hname : spec.name = n
    · subst hname
      have hnot : sofar.table.get spec.name ≠ none := by
        intro hnone
        have hfails : ∃ e, sofar.take merge raw spec = .error e := take_fails.mpr ⟨hnone, hlong⟩
        obtain ⟨e, he⟩ := hfails
        rw [h] at he
        cases he
      obtain ⟨row, hrow⟩ := Option.ne_none_iff_exists'.mp hnot
      simp [hrow, Merge.step]
    · rw [if_neg hname]
  refine exists_congr fun item => and_congr_right fun _ => or_congr_right ?_
  exact exists_congr fun spec => and_congr_right fun _ =>
    ⟨fun ⟨hnone, hlong⟩ => ⟨(hget hlong).mp hnone, hlong⟩,
      fun ⟨hnone, hlong⟩ => ⟨(hget hlong).mpr hnone, hlong⟩⟩

theorem importArtifacts_fails :
    (∃ e, importArtifacts load merge items sofar = .error e) ↔ ImportFails load items sofar.table := by
  induction items generalizing sofar with
  | nil => simp [importArtifacts, ImportFails]
  | cons item items ih =>
    rw [ImportFails, List.exists_mem_cons_iff, ← ImportFails, importArtifacts]
    cases hvalid : validateArtifactDefinition load item.raw with
    | error e =>
      cases e with
      | validation message => simpa using ih
      | raised message => simp
    | ok spec =>
      cases htake : sofar.take merge item.raw spec with
      | error e =>
        have hfails : sofar.table.get spec.name = none ∧ 255 < spec.name.length :=
          take_fails.mp ⟨e, htake⟩
        simp [htake, hfails, bind, Except.bind]
      | ok next =>
        have hnot : ¬ (sofar.table.get spec.name = none ∧ 255 < spec.name.length) := by
          intro hfails
          have herror : ∃ e, sofar.take merge item.raw spec = .error e := take_fails.mpr hfails
          obtain ⟨e, he⟩ := herror
          rw [htake] at he
          cases he
        have hrest := @ih next
        rw [importFails_take htake] at hrest
        simpa [htake, hnot, bind, Except.bind] using hrest

end OneName

/-! ## The two imports of one name -/

section Agreement

variable {load : Loader} {admin : Uuid} {row : ArtifactRow}

/-- The columns that both imports write alike. -/
def ArtifactRow.core (row : ArtifactRow) : ArtifactRow :=
  { row.compared with supportedPlatforms := [], lastPushStatus := none }

theorem compared_eq_iff {row other : ArtifactRow} : row.compared = other.compared ↔
    row.core = other.core ∧ row.supportedPlatforms = other.supportedPlatforms ∧
      row.lastPushStatus = other.lastPushStatus := by
  cases row
  cases other
  simp only [ArtifactRow.core, ArtifactRow.compared, ArtifactRow.mk.injEq]
  tauto

theorem core_eq_iff {row other : ArtifactRow} : row.core = other.core ↔
    row.definitionYaml = other.definitionYaml ∧ row.sha256 = other.sha256 ∧
      row.artifactType = other.artifactType ∧ row.enabled = other.enabled ∧
      row.selectionPriority = other.selectionPriority := by
  cases row
  cases other
  simp [ArtifactRow.core, ArtifactRow.compared]

theorem core_step {o p : Option ArtifactRow} (h : o.map ArtifactRow.core = p.map ArtifactRow.core)
    (taken : String × ArtifactSpec) :
    ((handMerge admin).step o taken).map ArtifactRow.core =
    (autoMerge.step p taken).map ArtifactRow.core := by
  cases o with
  | none =>
    cases p with
    | none => simp [Merge.step, handMerge, autoMerge, ArtifactRow.core, ArtifactRow.compared]
    | some row => simp at h
  | some row =>
    cases p with
    | none => simp at h
    | some other =>
      obtain ⟨hdefinition, hsha, htype, henabled, hpriority⟩ := core_eq_iff.mp (Option.some.inj h)
      by_cases heq : other.sha256 = taken.2.sha256
      all_goals
        refine congrArg some (core_eq_iff.mpr ?_)
        simp [handMerge, autoMerge, hsha, hdefinition, htype, henabled, hpriority, heq]

theorem core_foldl {o p : Option ArtifactRow} (h : o.map ArtifactRow.core = p.map ArtifactRow.core)
    (taken : List (String × ArtifactSpec)) :
    (taken.foldl (handMerge admin).step o).map ArtifactRow.core =
      (taken.foldl autoMerge.step p).map ArtifactRow.core := by
  induction taken generalizing o p with
  | nil => exact h
  | cons x taken ih => exact ih (core_step h x)

theorem foldl_hand (taken : List (String × ArtifactSpec)) (row : ArtifactRow) :
    ∃ after, taken.foldl (handMerge admin).step (some row) = some after ∧
      after.supportedPlatforms = row.supportedPlatforms ∧
      after.lastPushStatus = if taken = [] then row.lastPushStatus else some "pushed" := by
  induction taken generalizing row with
  | nil => exact ⟨row, rfl, rfl, rfl⟩
  | cons x taken ih =>
    obtain ⟨after, hafter, hplatforms, hstatus⟩ := ih ((handMerge admin).seen x.2 row)
    have hseen : ((handMerge admin).seen x.2 row).supportedPlatforms = row.supportedPlatforms ∧
        ((handMerge admin).seen x.2 row).lastPushStatus = some "pushed" := by
      by_cases hsha : row.sha256 = x.2.sha256 <;> simp [handMerge, hsha]
    refine ⟨after, hafter, hplatforms.trans hseen.1, ?_⟩
    rw [hstatus, hseen.2]
    simp

/-- A row that the task meets has been pushed afterwards if one of the definitions is another one. -/
theorem foldl_auto (taken : List (String × ArtifactSpec)) (row : ArtifactRow) :
    ∃ after, taken.foldl autoMerge.step (some row) = some after ∧
      after.supportedPlatforms = row.supportedPlatforms ∧ after.lastPushStatus =
        if ∃ x ∈ taken, x.2.sha256 ≠ row.sha256 then some "pushed" else row.lastPushStatus := by
  induction taken generalizing row with
  | nil => exact ⟨row, rfl, rfl, by simp⟩
  | cons x taken ih =>
    obtain ⟨after, hafter, hplatforms, hstatus⟩ := ih (autoMerge.seen x.2 row)
    by_cases hsha : row.sha256 = x.2.sha256
    · have hseen : autoMerge.seen x.2 row = row := by simp [autoMerge, hsha]
      rw [hseen] at hplatforms hstatus
      rw [hseen] at hafter
      have hstep : autoMerge.step (some row) x = some row := by rw [Merge.step, hseen]
      refine ⟨after, by rw [List.foldl_cons, hstep, hafter], hplatforms, hstatus.trans ?_⟩
      simp only [List.exists_mem_cons_iff, hsha, ne_eq, not_true_eq_false, false_or]
    · have hseen : (autoMerge.seen x.2 row).lastPushStatus = some "pushed" ∧
          (autoMerge.seen x.2 row).supportedPlatforms = row.supportedPlatforms := by
        simp [autoMerge, hsha]
      refine ⟨after, hafter, hplatforms.trans hseen.2, ?_⟩
      rw [hstatus, hseen.1, ite_self, if_pos ⟨x, List.mem_cons_self, Ne.symm hsha⟩]

/-- **A name agrees**: a new artifact names Windows, or no platform, and an old one had been pushed, or
has another definition on the server. -/
def NameAgrees (taken : List (String × ArtifactSpec)) : Option ArtifactRow → Prop
  | none => ∀ x ∈ taken.head?, detectedPlatforms x.1 = ["windows"]
  | some row => taken = [] ∨ row.lastPushStatus = some "pushed" ∨ ∃ x ∈ taken, x.2.sha256 ≠ row.sha256

theorem foldl_compared_iff (taken : List (String × ArtifactSpec)) (o : Option ArtifactRow) :
    (taken.foldl (handMerge admin).step o).map ArtifactRow.compared =
      (taken.foldl autoMerge.step o).map ArtifactRow.compared ↔ NameAgrees taken o := by
  have hcompared : ∀ {o p : Option ArtifactRow} {row other : ArtifactRow},
      o = some row → p = some other → o.map ArtifactRow.core = p.map ArtifactRow.core →
      (o.map ArtifactRow.compared = p.map ArtifactRow.compared ↔
        row.supportedPlatforms = other.supportedPlatforms ∧
          row.lastPushStatus = other.lastPushStatus) := by
    rintro o p row other rfl rfl hcore
    rw [Option.map_some, Option.map_some, Option.some.injEq, compared_eq_iff]
    exact and_iff_right (Option.some.inj hcore)
  cases o with
  | none =>
    cases taken with
    | nil => simp [NameAgrees]
    | cons x taken =>
      obtain ⟨row, hrow, hplatforms, hstatus⟩ :=
        @foldl_hand admin taken ((handMerge admin).added x.1 x.2)
      obtain ⟨other, hother, hplatforms', hstatus'⟩ := foldl_auto taken (autoMerge.added x.1 x.2)
      have hpushed : row.lastPushStatus = other.lastPushStatus := by
        have hauto : (autoMerge.added x.1 x.2).lastPushStatus = some "pushed" := by simp [autoMerge]
        have hhand : ((handMerge admin).added x.1 x.2).lastPushStatus = some "pushed" := by
          simp [handMerge]
        rw [hstatus, hstatus', hauto, hhand, ite_self, ite_self]
      have hcore := @core_step admin none none rfl x
      have hiff := hcompared hrow hother (core_foldl hcore taken)
      have hdetected : ((handMerge admin).added x.1 x.2).supportedPlatforms = detectedPlatforms x.1 := rfl
      have hwindows : (autoMerge.added x.1 x.2).supportedPlatforms = ["windows"] := rfl
      rw [and_iff_left hpushed, hplatforms, hplatforms', hdetected, hwindows] at hiff
      refine hiff.trans ⟨fun h y hy => ?_, fun h => h x rfl⟩
      obtain rfl := Option.some.inj hy
      exact h
  | some old =>
    obtain ⟨row, hrow, hplatforms, hstatus⟩ := @foldl_hand admin taken old
    obtain ⟨other, hother, hplatforms', hstatus'⟩ := foldl_auto taken old
    rw [hcompared hrow hother (core_foldl rfl taken), hplatforms, hplatforms', hstatus, hstatus', NameAgrees]
    simp only [true_and]
    by_cases hnil : taken = []
    · simp [hnil]
    · rw [if_neg hnil]
      by_cases hother : ∃ x ∈ taken, x.2.sha256 ≠ old.sha256
      · simp [hother]
      · rw [if_neg hother]
        simp only [hnil, hother, or_false, false_or]
        exact eq_comm

end Agreement

/-! ## Both imports -/

/-- Two tables have the same rows, as far as they are compared. -/
def SameRows (table other : Table String ArtifactRow) : Prop :=
  ∀ name, (table.get name).map ArtifactRow.compared = (other.get name).map ArtifactRow.compared

/-- **All names agree**, if the client can be opened, the server answers and the import does not fail. -/
def ImportsAgree (load : Loader) (out : Outside) (desk : Desk)
    (answer : Except ClientExc (List ServerRow)) (table : Table String ArtifactRow) : Prop :=
  ∀ cfg rows, buildVelociraptorClient out desk = .ok (some cfg) → out.opening = none →
    answer = .ok rows → ¬ ImportFails load (pullServerArtifacts rows) table →
      ∀ name, NameAgrees (takenAs load name (pullServerArtifacts rows)) (table.get name)

/-- **The two imports leave the same rows** exactly when all names agree. -/
theorem imports_agree_iff (load : Loader) (out : Outside) (desk : Desk)
    (answer : Except ClientExc (List ServerRow)) (admin : Uuid) (table : Table String ArtifactRow) :
    SameRows (syncArtifactsFromServer load out desk answer admin table).1
      (triggerAutoSyncPull load out desk answer table) ↔ ImportsAgree load out desk answer table := by
  have hsame : SameRows table table := fun _ => rfl
  unfold syncArtifactsFromServer triggerAutoSyncPull ImportsAgree
  cases hbuild : buildVelociraptorClient out desk with
  | error e => exact iff_of_true hsame (by rintro _ _ ⟨⟩)
  | ok built =>
    cases built with
    | none => exact iff_of_true hsame (by rintro _ _ ⟨⟩)
    | some cfg =>
      cases hopening : out.opening with
      | some e => exact iff_of_true hsame (by rintro _ _ _ ⟨⟩)
      | none =>
        cases hanswer : answer with
        | error e => exact iff_of_true hsame (by rintro _ _ _ _ ⟨⟩)
        | ok rows =>
          have hfails := @importArtifacts_fails load (handMerge admin) (pullServerArtifacts rows)
            ⟨table, 0, 0⟩
          have hfails' := @importArtifacts_fails load autoMerge (pullServerArtifacts rows) ⟨table, 0, 0⟩
          dsimp only [bind, Except.bind, Option.elim]
          cases hhand : importArtifacts load (handMerge admin) (pullServerArtifacts rows) ⟨table, 0, 0⟩ with
          | error e =>
            have hfail := hfails.mp ⟨e, hhand⟩
            obtain ⟨e', hauto⟩ := hfails'.mpr hfail
            rw [hauto]
            refine iff_of_true hsame fun _ _ _ _ hrows hnot => ?_
            obtain rfl := Except.ok.inj hrows
            exact absurd hfail hnot
          | ok hand =>
            have hnot : ¬ ImportFails load (pullServerArtifacts rows) table := by
              intro hfail
              obtain ⟨e, he⟩ := hfails.mpr hfail
              rw [hhand] at he
              cases he
            cases hauto : importArtifacts load autoMerge (pullServerArtifacts rows) ⟨table, 0, 0⟩ with
            | error e => exact absurd (hfails'.mp ⟨e, hauto⟩) hnot
            | ok auto =>
              have hname : ∀ name, ((hand.table.get name).map ArtifactRow.compared =
                  (auto.table.get name).map ArtifactRow.compared ↔
                    NameAgrees (takenAs load name (pullServerArtifacts rows)) (table.get name)) := by
                intro name
                rw [get_importArtifacts hhand, get_importArtifacts hauto]
                exact foldl_compared_iff _ _
              dsimp only
              rw [SameRows, forall_congr' hname]
              constructor
              · intro hall _ _ _ _ hrows _
                obtain rfl := Except.ok.inj hrows
                exact hall
              · exact fun hall => hall cfg rows rfl rfl rfl hnot

/-- A definition that is for Linux, as `yaml.safe_load` reads it. -/
def linuxLoader : Loader where
  safeLoad _ := .ok (.mapping [(.str "name", .str "Custom.Linux.Info"),
    (.str "sources", .list [.mapping [(.str "query", .str "SELECT * FROM info()")]])])
  sha256 := id

/-- The server has the definition. -/
def linuxAnswer : Except ClientExc (List ServerRow) :=
  .ok [⟨some "Custom.Linux.Info", some "name: Custom.Linux.Info\nsources:\n- query: SELECT * FROM info()"⟩]

/-- **An artifact for Linux** that the table does not have. -/
theorem imports_differ : ¬ ∀ (load : Loader) (out : Outside) (desk : Desk)
    (answer : Except ClientExc (List ServerRow)) (admin : Uuid) (table : Table String ArtifactRow),
    SameRows (syncArtifactsFromServer load out desk answer admin table).1
      (triggerAutoSyncPull load out desk answer table) := by
  intro h
  have hsame := h linuxLoader exampleOutside exampleDesk linuxAnswer 0 Table.empty "Custom.Linux.Info"
  have hdiffer : (((syncArtifactsFromServer linuxLoader exampleOutside exampleDesk linuxAnswer 0
      Table.empty).1.get "Custom.Linux.Info").map fun row => row.compared.supportedPlatforms) = some ["linux"] ∧
      ((triggerAutoSyncPull linuxLoader exampleOutside exampleDesk linuxAnswer Table.empty).get
        "Custom.Linux.Info").map (fun row => row.compared.supportedPlatforms) = some ["windows"] := by
    decide +kernel
  have hplatforms := congrArg (Option.map ArtifactRow.supportedPlatforms) hsame
  rw [Option.map_map, Option.map_map] at hplatforms
  have habsurd : some ["linux"] = some ["windows"] := hdiffer.1.symm.trans (hplatforms.trans hdiffer.2)
  exact absurd habsurd (by decide)

end AssetInventory.Velociraptor

import AssetInventory.Lib.Alone
import AssetInventory.Server.OrgScope

/-!
# The tables of the machines

Machines, the tokens they enroll with, what they report, and the decisions of the administrators about
them, as far as the routes for machines use them.

* `Machine`, `EnrollToken`, `EnrollAttempt`, `FingerprintDrift` and so on: the rows; `Data`: the tables.
* `DataWrite`: what a statement writes.  A session writes the columns that differ from what it loaded.
* `Handler`: the programs of the routes; `Env`: what the world outside answers them.
* `Note`: what a commit has done, for the statements about runs.

Rows of machines are never deleted here.  The entries that the routes append to the audit log are left
out; the flush before such an entry is not.
-/

namespace AssetInventory.Fleet

open PyJson PyTime Orm RowStore ReadCommitted Server

inductive MachineStatus where
  | online | offline | lost | decommissioned | pending
  deriving DecidableEq

inductive AssetLifecycle where
  | new | inUse | inRepair | decommissioned
  deriving DecidableEq

inductive TokenStatus where
  | pending | used | revoked | expired
  deriving DecidableEq

/-- The status of an attempt to enroll and of a change of a fingerprint. -/
inductive Decision where
  | pending | approved | rejected
  deriving DecidableEq

/-- A fingerprint: a JSON object. -/
abbrev Fingerprint := List (String × Json)

/-- A row of `machines`. -/
structure Machine where
  orgId : Uuid
  machineUuid : String
  hostname : Option String
  fingerprint : Fingerprint
  status : MachineStatus
  lifecycle : AssetLifecycle
  isVm : Option Bool
  enrolledAt : Time
  lastSeenAt : Option Time
  assignedUserId : Option Uuid
  note : Option String
  publicIp : Option String
  deriving DecidableEq

/-- An `UPDATE` of a machine: the columns in which the object differs from what was loaded. -/
def Machine.writeBack (base cur stored : Machine) : Machine where
  orgId := pick base.orgId cur.orgId stored.orgId
  machineUuid := pick base.machineUuid cur.machineUuid stored.machineUuid
  hostname := pick base.hostname cur.hostname stored.hostname
  fingerprint := pick base.fingerprint cur.fingerprint stored.fingerprint
  status := pick base.status cur.status stored.status
  lifecycle := pick base.lifecycle cur.lifecycle stored.lifecycle
  isVm := pick base.isVm cur.isVm stored.isVm
  enrolledAt := pick base.enrolledAt cur.enrolledAt stored.enrolledAt
  lastSeenAt := pick base.lastSeenAt cur.lastSeenAt stored.lastSeenAt
  assignedUserId := pick base.assignedUserId cur.assignedUserId stored.assignedUserId
  note := pick base.note cur.note stored.note
  publicIp := pick base.publicIp cur.publicIp stored.publicIp

/-- A row of `enroll_tokens`. -/
structure EnrollToken where
  tokenHash : String
  orgId : Uuid
  createdBy : Uuid
  fullName : Option String
  email : Option String
  note : Option String
  expiresAt : Time
  usedAt : Option Time
  usedBy : Option Uuid
  status : TokenStatus
  classification : Option String
  purposeTags : List String
  deriving DecidableEq

/-- An `UPDATE` of a token. -/
def EnrollToken.writeBack (base cur stored : EnrollToken) : EnrollToken where
  tokenHash := pick base.tokenHash cur.tokenHash stored.tokenHash
  orgId := pick base.orgId cur.orgId stored.orgId
  createdBy := pick base.createdBy cur.createdBy stored.createdBy
  fullName := pick base.fullName cur.fullName stored.fullName
  email := pick base.email cur.email stored.email
  note := pick base.note cur.note stored.note
  expiresAt := pick base.expiresAt cur.expiresAt stored.expiresAt
  usedAt := pick base.usedAt cur.usedAt stored.usedAt
  usedBy := pick base.usedBy cur.usedBy stored.usedBy
  status := pick base.status cur.status stored.status
  classification := pick base.classification cur.classification stored.classification
  purposeTags := pick base.purposeTags cur.purposeTags stored.purposeTags

/-- Why a token was refused. -/
inductive Refusal where
  | unknown | used | expired | revoked
  deriving DecidableEq

/-- A row of `enroll_attempts`. -/
structure EnrollAttempt where
  orgId : Option Uuid
  tokenId : Option Uuid
  tokenStatus : Refusal
  tokenPrefix : String
  machineUuid : String
  hostname : Option String
  ip : Option String
  fingerprint : Fingerprint
  matchedMachineId : Option Uuid
  status : Decision
  note : Option String
  decidedBy : Option Uuid
  decidedAt : Option Time
  createdAt : Time
  deriving DecidableEq

/-- An `UPDATE` of an attempt. -/
def EnrollAttempt.writeBack (base cur stored : EnrollAttempt) : EnrollAttempt where
  orgId := pick base.orgId cur.orgId stored.orgId
  tokenId := pick base.tokenId cur.tokenId stored.tokenId
  tokenStatus := pick base.tokenStatus cur.tokenStatus stored.tokenStatus
  tokenPrefix := pick base.tokenPrefix cur.tokenPrefix stored.tokenPrefix
  machineUuid := pick base.machineUuid cur.machineUuid stored.machineUuid
  hostname := pick base.hostname cur.hostname stored.hostname
  ip := pick base.ip cur.ip stored.ip
  fingerprint := pick base.fingerprint cur.fingerprint stored.fingerprint
  matchedMachineId := pick base.matchedMachineId cur.matchedMachineId stored.matchedMachineId
  status := pick base.status cur.status stored.status
  note := pick base.note cur.note stored.note
  decidedBy := pick base.decidedBy cur.decidedBy stored.decidedBy
  decidedAt := pick base.decidedAt cur.decidedAt stored.decidedAt
  createdAt := pick base.createdAt cur.createdAt stored.createdAt

/-- A row of `fingerprint_drifts`. -/
structure FingerprintDrift where
  machineId : Uuid
  oldFingerprint : Fingerprint
  newFingerprint : Fingerprint
  reason : String
  status : Decision
  resolvedAt : Option Time
  resolvedBy : Option Uuid
  deriving DecidableEq

/-- An `UPDATE` of a change of a fingerprint. -/
def FingerprintDrift.writeBack (base cur stored : FingerprintDrift) : FingerprintDrift where
  machineId := pick base.machineId cur.machineId stored.machineId
  oldFingerprint := pick base.oldFingerprint cur.oldFingerprint stored.oldFingerprint
  newFingerprint := pick base.newFingerprint cur.newFingerprint stored.newFingerprint
  reason := pick base.reason cur.reason stored.reason
  status := pick base.status cur.status stored.status
  resolvedAt := pick base.resolvedAt cur.resolvedAt stored.resolvedAt
  resolvedBy := pick base.resolvedBy cur.resolvedBy stored.resolvedBy

inductive TagKind where
  | classification | purpose
  deriving DecidableEq

/-- A row of `tags`. -/
structure Tag where
  id : Uuid
  key : String
  label : String
  kind : TagKind
  color : Option String
  sortOrder : ℤ
  isSystem : Bool
  deriving DecidableEq

/-- A row of `machine_tags`. -/
structure MachineTag where
  machineId : Uuid
  tagId : Uuid
  kind : TagKind
  setBy : Option Uuid
  deriving DecidableEq

/-- A row of `dfir_investigation_requests`. -/
structure DfirRequest where
  machineId : Uuid
  artifact : String
  reason : Option String
  urgency : String
  status : String
  requestedBy : Uuid
  createdAt : Time
  deriving DecidableEq

/-- A row of `dfir_investigations`, with the key of its machine. -/
structure Investigation where
  machineId : Uuid
  row : DfirInvestigation
  deriving DecidableEq

/-- What a machine reports of itself, under the names of the columns of `machine_specs`. -/
structure Reported where
  osName : Option String
  osVersion : Option String
  osBuild : Option String
  osArch : Option String
  osInstalledAt : Option Time
  activationStatus : Option String
  cpu : Option Json
  ramGb : Option ℚ
  disks : Option (List Json)
  gpu : Option Json
  mainboard : Option Json
  bios : Option Json
  network : Option (List Json)
  loggedUser : Option String
  installedSoftware : Option (List Json)
  security : Option Json
  publicIp : Option String
  agent : Option Json
  osMetadata : Option Json
  inventorySchemaVersion : Option ℤ
  deriving DecidableEq

/-- `os_product`, `os_release` and `os_family`. -/
structure OsFields where
  product : Option String
  release : Option String
  family : String
  deriving DecidableEq

/-- A row of `machine_specs`. -/
structure MachineSpec where
  machineId : Uuid
  reported : Reported
  os : OsFields
  configHash : Option String
  collectedAt : Time
  deriving DecidableEq

/-- The columns of `machine_current` that hold the configuration. -/
structure Configuration where
  osName : Option String
  osVersion : Option String
  osBuild : Option String
  osArch : Option String
  osInstalledAt : Option Time
  activationStatus : Option String
  cpu : Option Json
  ramGb : Option ℚ
  disks : Option (List Json)
  gpu : Option Json
  mainboard : Option Json
  bios : Option Json
  network : Option (List Json)
  loggedUser : Option String
  isVm : Option Bool
  publicIp : Option String
  os : OsFields
  /-- The columns from `antivirus` to `usb_storage_blocked`. -/
  security : List (String × Json)
  platform : Option String
  agentVersion : Option String
  /-- The columns from `update_status` to `remote_desktop_enabled`. -/
  v4 : List (String × Json)
  deriving DecidableEq

/-- A row of `machine_current`. -/
structure MachineCurrent where
  collectedAt : Time
  configHash : Option String
  configuration : Configuration
  deriving DecidableEq

/-- A row of `machine_software`. -/
structure MachineSoftware where
  machineId : Uuid
  collectedAt : Time
  entry : List (String × Json)
  deriving DecidableEq

/-- A row of `heartbeats`. -/
structure Heartbeat where
  machineId : Uuid
  ts : Time
  deriving DecidableEq

/-- The tables. -/
structure Data where
  organizations : List OrgRow
  users : Table Uuid User
  machines : Table Uuid Machine
  tokens : Table Uuid EnrollToken
  attempts : Table Uuid EnrollAttempt
  drifts : Table Uuid FingerprintDrift
  tags : List Tag
  machineTags : List MachineTag
  dfirRequests : Table Uuid DfirRequest
  investigations : Table Uuid Investigation
  specs : List MachineSpec
  current : Table Uuid MachineCurrent
  software : List MachineSoftware
  heartbeats : List Heartbeat

/-- The rows that are updated. -/
inductive RowKey where
  | machine (id : Uuid)
  | token (id : Uuid)
  | attempt (id : Uuid)
  | drift (id : Uuid)
  | current (machineId : Uuid)
  deriving DecidableEq

/-- What a statement writes. -/
inductive DataWrite where
  /-- `UPDATE machines`, with the object as loaded and as it is. -/
  | machine (id : Uuid) (base cur : Machine)
  /-- `INSERT INTO machines`. -/
  | newMachine (id : Uuid) (row : Machine)
  /-- `UPDATE enroll_tokens`. -/
  | token (id : Uuid) (base cur : EnrollToken)
  /-- `INSERT INTO enroll_tokens`. -/
  | newToken (id : Uuid) (row : EnrollToken)
  /-- `UPDATE enroll_attempts`. -/
  | attempt (id : Uuid) (base cur : EnrollAttempt)
  /-- `INSERT INTO enroll_attempts`. -/
  | newAttempt (id : Uuid) (row : EnrollAttempt)
  /-- `UPDATE fingerprint_drifts`. -/
  | drift (id : Uuid) (base cur : FingerprintDrift)
  /-- `INSERT INTO fingerprint_drifts`. -/
  | newDrift (id : Uuid) (row : FingerprintDrift)
  /-- `INSERT INTO users`. -/
  | newUser (id : Uuid) (row : User)
  /-- `INSERT INTO tags`. -/
  | createTag (row : Tag)
  /-- `DELETE FROM machine_tags`, all of a kind. -/
  | clearTags (machineId : Uuid) (kind : TagKind)
  /-- `INSERT INTO machine_tags`. -/
  | newTag (row : MachineTag)
  /-- `INSERT INTO dfir_investigation_requests`. -/
  | newDfirRequest (id : Uuid) (row : DfirRequest)
  /-- `INSERT INTO machine_specs`. -/
  | newSpec (row : MachineSpec)
  /-- `INSERT INTO machine_current`, or `UPDATE` of all its columns. -/
  | current (machineId : Uuid) (row : MachineCurrent)
  /-- `DELETE FROM machine_software`, all of a machine. -/
  | clearSoftware (machineId : Uuid)
  /-- `INSERT INTO machine_software`. -/
  | newSoftware (row : MachineSoftware)
  /-- `INSERT INTO heartbeats`. -/
  | newHeartbeat (row : Heartbeat)

/-- The tables after a write. -/
def DataWrite.apply (d : Data) : DataWrite → Data
  | .machine id base cur => { d with machines := d.machines.modify id (Machine.writeBack base cur) }
  | .newMachine id row => { d with machines := d.machines.insert id row }
  | .token id base cur => { d with tokens := d.tokens.modify id (EnrollToken.writeBack base cur) }
  | .newToken id row => { d with tokens := d.tokens.insert id row }
  | .attempt id base cur =>
    { d with attempts := d.attempts.modify id (EnrollAttempt.writeBack base cur) }
  | .newAttempt id row => { d with attempts := d.attempts.insert id row }
  | .drift id base cur =>
    { d with drifts := d.drifts.modify id (FingerprintDrift.writeBack base cur) }
  | .newDrift id row => { d with drifts := d.drifts.insert id row }
  | .newUser id row => { d with users := d.users.insert id row }
  | .createTag row =>
    { d with
      tags := if d.tags.any fun t => decide (t.id = row.id ∨ t.key = row.key) then d.tags
        else d.tags ++ [row] }
  | .clearTags machineId kind =>
    { d with
      machineTags := d.machineTags.filter fun t => !decide (t.machineId = machineId ∧ t.kind = kind) }
  | .newTag row => { d with machineTags := d.machineTags ++ [row] }
  | .newDfirRequest id row => { d with dfirRequests := d.dfirRequests.insert id row }
  | .newSpec row => { d with specs := d.specs ++ [row] }
  | .current machineId row =>
    { d with current := (d.current.insert machineId row).modify machineId fun _ => row }
  | .clearSoftware machineId =>
    { d with software := d.software.filter fun s => decide (s.machineId ≠ machineId) }
  | .newSoftware row => { d with software := d.software ++ [row] }
  | .newHeartbeat row => { d with heartbeats := d.heartbeats ++ [row] }

instance : Applies DataWrite Data := ⟨fun w d => w.apply d⟩

/-- What the world outside answers. -/
structure Env where
  /-- The clock. -/
  now : Time
  /-- The order in which a query without one returns its rows. -/
  rank : Uuid → ℕ
  /-- Which of several rows that are equal in the order of a query comes first. -/
  first : ℕ
  /-- The certificate that the CA signs; `none` is an exception. -/
  certificate : Option String

/-- What a commit has done. -/
inductive Note where
  | enrolled (token machine : Uuid)
  /-- The enrolled machine had been decommissioned and is pending again. -/
  | reenrolled (machine : Uuid)
  /-- An administrator has approved the machine. -/
  | approved (machine : Uuid)
  /-- An administrator has rejected or decommissioned the machine. -/
  | declined (machine : Uuid)
  deriving DecidableEq

/-- The programs of the routes. -/
abbrev Handler := Prog Data RowKey DataWrite Env Note

/-- `datetime.now(UTC)`. -/
def now : Handler Time := .answer Env.now

/-- `HTTPException(status, detail)`. -/
def httpError {α : Type} (statusCode : ℕ) (detail : String) : Handler (Except HttpError α) :=
  pure (.error ⟨statusCode, detail⟩)

/-- An exception that no handler catches. -/
def serverError {α : Type} : Handler (Except HttpError α) := httpError 500 "Internal Server Error"

/-! ## Which tables a write changes -/

section Apply

variable (d : Data) (w : DataWrite)

variable {d w}

@[simp] theorem machines_machine (id : Uuid) (base cur : Machine) :
    (Applies.apply (DataWrite.machine id base cur) d).machines =
      d.machines.modify id (Machine.writeBack base cur) := rfl

@[simp] theorem machines_newMachine (id : Uuid) (row : Machine) :
    (Applies.apply (DataWrite.newMachine id row) d).machines = d.machines.insert id row := rfl

@[simp] theorem tokens_token (id : Uuid) (base cur : EnrollToken) :
    (Applies.apply (DataWrite.token id base cur) d).tokens =
      d.tokens.modify id (EnrollToken.writeBack base cur) := rfl

@[simp] theorem tokens_newToken (id : Uuid) (row : EnrollToken) :
    (Applies.apply (DataWrite.newToken id row) d).tokens = d.tokens.insert id row := rfl

/-- A write that concerns neither machines nor tokens. -/
def DataWrite.Aside : DataWrite → Prop
  | .machine _ _ _ => False
  | .newMachine _ _ => False
  | .token _ _ _ => False
  | .newToken _ _ => False
  | _ => True

/-- A write that concerns neither machines, tokens nor tags. -/
def DataWrite.Apart : DataWrite → Prop
  | .createTag _ => False
  | .clearTags _ _ => False
  | .newTag _ => False
  | w => w.Aside

theorem DataWrite.Apart.aside (h : w.Apart) : w.Aside := by
  cases w <;> trivial

theorem forall_apart {A : DataWrite → Prop} (hA : ∀ w : DataWrite, w.Aside → A w) (w : DataWrite)
    (hw : w.Apart) : A w := hA w hw.aside

end Apply

end AssetInventory.Fleet

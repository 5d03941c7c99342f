import AssetInventory.Fleet.Enroll

/-!
# Inventory

A machine submits its configuration.  A snapshot is stored when the hash of the submission differs from
that of the latest snapshot, and the row with the current configuration is brought up to date with it.

* `configurationOf`, `upsertCurrentAndSoftware`: the current configuration; offline imports use it as well.
* `latestSpecs`: the rows that a query for the latest snapshot may return.
* `submitInventory`: the route.

The functions that normalize what a machine reports are parameters, and so is the hash of a submission
that brings none of its own.
-/

namespace AssetInventory.Fleet

open PyJson PyTime Orm RowStore ReadCommitted Server

/-! ## The current configuration -/

/-- The functions that normalize what a machine reports. -/
structure Normalizers where
  /-- `derive_os_fields`. -/
  osFields : Option String → Option String → Option String → OsFields
  /-- `derive_security_fields`. -/
  securityFields : Option Json → List (String × Json)
  /-- `derive_v4_security_fields`. -/
  v4SecurityFields : Option Json → List (String × Json)
  /-- `derive_platform_fields`. -/
  platformFields : Option Json → Option Json → Option String × Option String
  softwareRows : Option (List Json) → List (List (String × Json))

variable (N : Normalizers)

/-- The columns of the operating system. -/
def Normalizers.osOf (r : Reported) : OsFields := N.osFields r.osName r.osVersion r.osBuild

/-- The columns of `machine_current` that hold the configuration. -/
def configurationOf (r : Reported) (isVm : Option Bool) : Configuration where
  osName := r.osName
  osVersion := r.osVersion
  osBuild := r.osBuild
  osArch := r.osArch
  osInstalledAt := r.osInstalledAt
  activationStatus := r.activationStatus
  cpu := r.cpu
  ramGb := r.ramGb
  disks := r.disks
  gpu := r.gpu
  mainboard := r.mainboard
  bios := r.bios
  network := r.network
  loggedUser := r.loggedUser
  isVm := isVm
  publicIp := r.publicIp
  os := N.osOf r
  security := N.securityFields r.security
  platform := (N.platformFields r.agent r.osMetadata).1
  agentVersion := (N.platformFields r.agent r.osMetadata).2
  v4 := N.v4SecurityFields r.security

/-- Insert a row for each entry. -/
def insertSoftware (machineId : Uuid) (collectedAt : Time) :
    List (List (String × Json)) → Handler Unit
  | [] => return ()
  | entry :: entries => do
    .insert (.newSoftware ⟨machineId, collectedAt, entry⟩)
    insertSoftware machineId collectedAt entries

/-- `collected_at or datetime.now(UTC)`. -/
def timeOr (collectedAt : Option Time) : Handler Time :=
  match collectedAt with
  | some t => pure t
  | none => now

def upsertCurrentAndSoftware (machineId : Uuid) (r : Reported) (isVm : Option Bool)
    (configHash : Option String) (collectedAt : Option Time) : Handler Unit := do
  let ts ← timeOr collectedAt
  let _ ← .update (.current machineId)
    fun _ => [.current machineId ⟨ts, configHash, configurationOf N r isVm⟩]
  .insert (.clearSoftware machineId)
  insertSoftware machineId ts (N.softwareRows r.installedSoftware)

/-! ## Submissions -/

/-- `InventoryRequest`; the nested models as they are dumped. -/
structure InventoryRequest where
  reported : Reported
  isVm : Option Bool
  configHash : Option String

/-- A list that is stored only if it is not empty. -/
def unlessEmpty (xs : Option (List Json)) : Option (List Json) :=
  xs.filter fun xs => decide (xs ≠ [])

/-- The columns of a submission. -/
def InventoryRequest.columns (body : InventoryRequest) : Reported :=
  { body.reported with
    disks := unlessEmpty body.reported.disks
    network := unlessEmpty body.reported.network
    installedSoftware := unlessEmpty body.reported.installedSoftware }

/-- What the route needs beside the database. -/
structure Inventorying where
  normalize : Normalizers
  configHash : InventoryRequest → String
  /-- When the class `MachineSpec` was defined: the default of its column `collected_at`. -/
  definedAt : Time

variable (V : Inventorying)

/-- `body.config_hash or _config_hash(body)`. -/
def Inventorying.hashOf (body : InventoryRequest) : String :=
  (orText body.configHash none).getD (V.configHash body)

/-- The snapshots of a machine. -/
def specsOf (data : Data) (machineId : Uuid) : List MachineSpec :=
  data.specs.filter fun s => decide (s.machineId = machineId)

/-- The rows that `ORDER BY collected_at DESC` may return first. -/
def latestOf (rows : List MachineSpec) : List MachineSpec :=
  rows.filter fun s => rows.all fun r => decide (r.collectedAt ≤ s.collectedAt)

def oneOf {α : Type} (rows : List α) (first : ℕ) : Option α := rows[first % rows.length]?

section OneOf

variable {α : Type} {rows : List α} {x : α} {first : ℕ}

theorem mem_of_oneOf (h : oneOf rows first = some x) : x ∈ rows := List.mem_of_getElem? h

theorem oneOf_eq_none : oneOf rows first = none ↔ rows = [] := by
  rw [oneOf, List.getElem?_eq_none_iff]
  constructor
  · intro h
    by_contra hne
    exact absurd (Nat.mod_lt first (List.length_pos_iff.mpr hne)) (Nat.not_lt.mpr h)
  · rintro rfl
    exact Nat.zero_le _

theorem exists_oneOf (h : x ∈ rows) : ∃ first, oneOf rows first = some x := by
  obtain ⟨n, hn, hx⟩ := List.getElem_of_mem h
  exact ⟨n, by rw [oneOf, Nat.mod_eq_of_lt hn, List.getElem?_eq_getElem hn, hx]⟩

end OneOf

/-- The latest snapshot of a machine. -/
def latestSpec (data : Data) (machineId : Uuid) (first : ℕ) : Option MachineSpec :=
  oneOf (latestOf (specsOf data machineId)) first

/-- The columns of the machine that a submission changes. -/
def Machine.submitted (m : Machine) (body : InventoryRequest) : Machine :=
  { m with
    isVm := body.isVm.or m.isVm
    publicIp := body.reported.publicIp.or m.publicIp }

/-- The snapshot of a submission. -/
def Inventorying.snapshot (machineId : Uuid) (body : InventoryRequest) : MachineSpec :=
  ⟨machineId, body.columns, V.normalize.osOf body.columns, some (V.hashOf body), V.definedAt⟩

/-- `submit_inventory`, for the machine that the client certificate names; whether the configuration has
changed. -/
def submitInventory (machineCn : Option Uuid) (body : InventoryRequest) :
    Handler (Except HttpError Bool) := do
  match machineCn with
  | none => httpError 401 "CN không hợp lệ"
  | some id =>
    let machine ← .select fun data => data.machines.get id
    match machine with
    | none => httpError 401 "Máy không tồn tại"
    | some machine =>
      if machine.status = .decommissioned then
        httpError 403 "Máy đã bị thu hồi/decline — không nhận inventory. Liên hệ quản trị viên."
      else
        let newHash := V.hashOf body
        let first ← .answer Env.first
        let latest ← .select fun data => latestSpec data id first
        if latest.any fun s => decide (s.configHash = some newHash) then return .ok false
        else
          flushMachine id machine (machine.submitted body)
          .insert (.newSpec (V.snapshot id body))
          upsertCurrentAndSoftware V.normalize id body.columns body.isVm (some newHash) none
          .publish []
          return .ok true

end AssetInventory.Fleet

import AssetInventory.Server.Callers
import AssetInventory.Server.OrgScope

/-!
# The tables of the system profiles

A profile describes an information system of an organisation and the level of protection that it needs.
For each level there is a catalogue of requirements, and a profile has a row for each requirement that it
has to meet.

* `SystemProfile`, `LevelRequirement`, `ProfileRequirement`, `ProfileEvent`: the rows; `Data`: the tables.
* `DataWrite`: what a statement writes.  A session writes the columns that differ from what it loaded.
* `RowKey`: what a statement waits for, a row or the entry of a unique index.
* `Handler`: the programs of the routes; `Note`: which change of a status a commit makes.

The devices, machines, contacts and so on of a profile are left out, and so are the entries of the audit
log; the flush before such an entry is not.
-/

namespace AssetInventory.Profiles

open PyJson PyTime Orm RowStore ReadCommitted Server

/-- `SystemProfileStatus`. -/
inductive ProfileStatus where
  | drafted | pendingReview | approved | implemented | fulfilled | rejected
  deriving DecidableEq

/-- The text in the column. -/
def ProfileStatus.value : ProfileStatus → String
  | .drafted => "drafted"
  | .pendingReview => "pending_review"
  | .approved => "approved"
  | .implemented => "implemented"
  | .fulfilled => "fulfilled"
  | .rejected => "rejected"

/-- `ProfileRequirementStatus`. -/
inductive RequirementStatus where
  | pending | requested | verified | rejected
  deriving DecidableEq

/-- The values of `ServiceAudience`. -/
def serviceAudiences : List String := ["internal", "citizens", "businesses", "mixed"]

/-- A date: the day, counted from 1970-01-01. -/
abbrev Date := ℤ

/-- The layout of a diagram: a JSON object. -/
abbrev Layout := List (String × Json)

/-- A row of `system_profiles`. -/
structure SystemProfile where
  orgId : Uuid
  code : String
  name : String
  level : ℤ
  description : Option String
  status : ProfileStatus
  decisionNumber : Option String
  decisionDate : Option Time
  decisionAgency : Option String
  documentNumber : Option String
  documentDate : Option Date
  managedBy : Option String
  reviewedBy : Option Uuid
  reviewedAt : Option Time
  reviewNote : Option String
  diagramMermaid : Option String
  physicalDiagramMermaid : Option String
  diagramLayout : Option Layout
  physicalDiagramLayout : Option Layout
  physicalLocation : Option String
  userAccounts : Option ℤ
  dataVolume : Option String
  serviceAudience : Option String
  createdBy : Uuid
  deriving DecidableEq

/-- An `UPDATE` of a profile: the columns in which the object differs from what was loaded. -/
def SystemProfile.writeBack (base cur stored : SystemProfile) : SystemProfile where
  orgId := pick base.orgId cur.orgId stored.orgId
  code := pick base.code cur.code stored.code
  name := pick base.name cur.name stored.name
  level := pick base.level cur.level stored.level
  description := pick base.description cur.description stored.description
  status := pick base.status cur.status stored.status
  decisionNumber := pick base.decisionNumber cur.decisionNumber stored.decisionNumber
  decisionDate := pick base.decisionDate cur.decisionDate stored.decisionDate
  decisionAgency := pick base.decisionAgency cur.decisionAgency stored.decisionAgency
  documentNumber := pick base.documentNumber cur.documentNumber stored.documentNumber
  documentDate := pick base.documentDate cur.documentDate stored.documentDate
  managedBy := pick base.managedBy cur.managedBy stored.managedBy
  reviewedBy := pick base.reviewedBy cur.reviewedBy stored.reviewedBy
  reviewedAt := pick base.reviewedAt cur.reviewedAt stored.reviewedAt
  reviewNote := pick base.reviewNote cur.reviewNote stored.reviewNote
  diagramMermaid := pick base.diagramMermaid cur.diagramMermaid stored.diagramMermaid
  physicalDiagramMermaid :=
    pick base.physicalDiagramMermaid cur.physicalDiagramMermaid stored.physicalDiagramMermaid
  diagramLayout := pick base.diagramLayout cur.diagramLayout stored.diagramLayout
  physicalDiagramLayout :=
    pick base.physicalDiagramLayout cur.physicalDiagramLayout stored.physicalDiagramLayout
  physicalLocation := pick base.physicalLocation cur.physicalLocation stored.physicalLocation
  userAccounts := pick base.userAccounts cur.userAccounts stored.userAccounts
  dataVolume := pick base.dataVolume cur.dataVolume stored.dataVolume
  serviceAudience := pick base.serviceAudience cur.serviceAudience stored.serviceAudience
  createdBy := pick base.createdBy cur.createdBy stored.createdBy

theorem SystemProfile.writeBack_base (base cur : SystemProfile) : writeBack base cur base = cur := by
  rw [writeBack]
  simp only [pick_base]

/-- A row of `level_requirements`: an entry of the catalogue. -/
structure LevelRequirement where
  level : ℤ
  code : String
  title : String
  description : Option String
  sortOrder : ℤ
  isActive : Bool
  deriving DecidableEq

/-- An `UPDATE` of an entry of the catalogue. -/
def LevelRequirement.writeBack (base cur stored : LevelRequirement) : LevelRequirement where
  level := pick base.level cur.level stored.level
  code := pick base.code cur.code stored.code
  title := pick base.title cur.title stored.title
  description := pick base.description cur.description stored.description
  sortOrder := pick base.sortOrder cur.sortOrder stored.sortOrder
  isActive := pick base.isActive cur.isActive stored.isActive

/-- A row of `system_profile_requirements`. -/
structure ProfileRequirement where
  profileId : Uuid
  requirementId : Uuid
  status : RequirementStatus
  evidence : Option String
  requestedBy : Option Uuid
  requestedAt : Option Time
  reviewedBy : Option Uuid
  reviewedAt : Option Time
  reviewNote : Option String
  deriving DecidableEq

/-- An `UPDATE` of a requirement of a profile. -/
def ProfileRequirement.writeBack (base cur stored : ProfileRequirement) : ProfileRequirement where
  profileId := pick base.profileId cur.profileId stored.profileId
  requirementId := pick base.requirementId cur.requirementId stored.requirementId
  status := pick base.status cur.status stored.status
  evidence := pick base.evidence cur.evidence stored.evidence
  requestedBy := pick base.requestedBy cur.requestedBy stored.requestedBy
  requestedAt := pick base.requestedAt cur.requestedAt stored.requestedAt
  reviewedBy := pick base.reviewedBy cur.reviewedBy stored.reviewedBy
  reviewedAt := pick base.reviewedAt cur.reviewedAt stored.reviewedAt
  reviewNote := pick base.reviewNote cur.reviewNote stored.reviewNote

theorem ProfileRequirement.writeBack_base (base cur : ProfileRequirement) :
    writeBack base cur base = cur := by
  rw [writeBack]
  simp only [pick_base]

/-- A row of `system_profile_events`. -/
structure ProfileEvent where
  id : Uuid
  profileId : Uuid
  event : String
  message : String
  actorId : Option Uuid
  actorName : Option String
  createdAt : Time
  deriving DecidableEq

/-- The tables. -/
structure Data where
  organizations : List OrgRow
  users : Table Uuid User
  profiles : Table Uuid SystemProfile
  catalogue : Table Uuid LevelRequirement
  requirements : Table Uuid ProfileRequirement
  events : List ProfileEvent

/-- What a statement waits for. -/
inductive RowKey where
  | profile (id : Uuid)
  | requirement (id : Uuid)
  | level (id : Uuid)
  /-- The entry of `uq_system_profiles_org_code`. -/
  | profileCode (orgId : Uuid) (code : String)
  /-- The entry of `uq_profile_requirement`. -/
  | requirementOf (profileId requirementId : Uuid)
  /-- The entry of the unique index of `level_requirements`. -/
  | levelCode (code : String)
  deriving DecidableEq

/-- What a statement writes. -/
inductive DataWrite where
  /-- `UPDATE system_profiles`, with the object as loaded and as it is. -/
  | profile (id : Uuid) (base cur : SystemProfile)
  /-- `INSERT INTO system_profiles`. -/
  | newProfile (id : Uuid) (row : SystemProfile)
  /-- `DELETE FROM system_profiles`, with `ON DELETE CASCADE` for the rows that refer to it. -/
  | deleteProfile (id : Uuid)
  /-- `UPDATE system_profile_requirements`. -/
  | requirement (id : Uuid) (base cur : ProfileRequirement)
  /-- `INSERT INTO system_profile_requirements`. -/
  | newRequirement (id : Uuid) (row : ProfileRequirement)
  /-- `DELETE FROM system_profile_requirements`. -/
  | deleteRequirement (id : Uuid)
  /-- `UPDATE level_requirements`. -/
  | level (id : Uuid) (base cur : LevelRequirement)
  /-- `INSERT INTO level_requirements`. -/
  | newLevel (id : Uuid) (row : LevelRequirement)
  /-- `DELETE FROM level_requirements`. -/
  | deleteLevel (id : Uuid)
  /-- `INSERT INTO system_profile_events`. -/
  | newEvent (row : ProfileEvent)

/-- The tables after a write. -/
def DataWrite.apply (d : Data) : DataWrite → Data
  | .profile id base cur =>
    { d with profiles := d.profiles.modify id (SystemProfile.writeBack base cur) }
  | .newProfile id row => { d with profiles := d.profiles.insert id row }
  | .deleteProfile id =>
    { d with
      profiles := d.profiles.erase id
      requirements := d.requirements.restrict fun _ r => decide (r.profileId ≠ id)
      events := d.events.filter fun e => decide (e.profileId ≠ id) }
  | .requirement id base cur =>
    { d with requirements := d.requirements.modify id (ProfileRequirement.writeBack base cur) }
  | .newRequirement id row => { d with requirements := d.requirements.insert id row }
  | .deleteRequirement id => { d with requirements := d.requirements.erase id }
  | .level id base cur =>
    { d with catalogue := d.catalogue.modify id (LevelRequirement.writeBack base cur) }
  | .newLevel id row => { d with catalogue := d.catalogue.insert id row }
  | .deleteLevel id => { d with catalogue := d.catalogue.erase id }
  | .newEvent row => { d with events := d.events ++ [row] }

instance : Applies DataWrite Data := ⟨fun w d => w.apply d⟩

/-- What the world outside answers. -/
structure Env where
  /-- The clock. -/
  now : Time
  /-- The order in which a query without one returns its rows. -/
  rank : Uuid → ℕ

/-- The change of a status that a commit makes. -/
inductive Note where
  | submitted (profileId : Uuid)
  | approved (profileId : Uuid)
  | rejected (profileId : Uuid)
  /-- An edit of a profile that was rejected. -/
  | reopened (profileId : Uuid)
  | reported (profileId : Uuid)
  | confirmed (profileId : Uuid)
  deriving DecidableEq

/-- The programs of the routes. -/
abbrev Handler := Prog Data RowKey DataWrite Env Note

/-- `datetime.now(UTC)`. -/
def now : Handler Time := .answer Env.now

/-- `HTTPException(status, detail)`. -/
def httpError {α : Type} (statusCode : ℕ) (detail : String) : Handler (Except HttpError α) :=
  pure (.error ⟨statusCode, detail⟩)

/-- An exception that no handler catches. -/
def serverError {α : Type} : Handler (Except HttpError α) := httpError 500 "Internal Server Error"

/-! ## Queries -/

section Queries

variable (data : Data)

/-- `visible_org_ids`, with enough depth. -/
def visibleOrgs (user : User) : Finset Uuid :=
  (visibleOrgIds (data.organizations.length + 2) data.organizations user).getD ∅

/-- The rows of a profile in `system_profile_requirements`. -/
def requirementsOf (profileId : Uuid) : List (Uuid × ProfileRequirement) :=
  data.requirements.rowsWhere fun r => decide (r.profileId = profileId)

/-- The active entries of the catalogue for a level. -/
def activeEntries (level : ℤ) : List (Uuid × LevelRequirement) :=
  data.catalogue.rowsWhere fun r => decide (r.level = level) && r.isActive

/-- The profiles of an organisation with a code; there is one at most. -/
def profilesWithCode (orgId : Uuid) (code : String) : List (Uuid × SystemProfile) :=
  data.profiles.rowsWhere fun p => decide (p.orgId = orgId ∧ p.code = code)

/-- The rows of a profile for an entry of the catalogue; there is one at most. -/
def requirementsFor (profileId requirementId : Uuid) : List (Uuid × ProfileRequirement) :=
  data.requirements.rowsWhere fun r =>
    decide (r.profileId = profileId ∧ r.requirementId = requirementId)

/-- The rows of profiles for an entry of the catalogue. -/
def referencesTo (requirementId : Uuid) : List (Uuid × ProfileRequirement) :=
  data.requirements.rowsWhere fun r => decide (r.requirementId = requirementId)

/-- The entries of the catalogue with a code; there is one at most. -/
def entriesWithCode (code : String) : List (Uuid × LevelRequirement) :=
  data.catalogue.rowsWhere fun r => decide (r.code = code)

end Queries

end AssetInventory.Profiles

import AssetInventory.Fleet.Model

/-!
# Enrollment

A machine shows a token and its fingerprint.  The server checks the token, looks for a machine of the
token's organisation with the same weighted id or with a similar fingerprint, and inserts a machine or
updates the one it found; then the CA signs, the token is marked, and all is committed.

* `computeWeightedId`: the id that stands for a fingerprint.
* `performEnroll`, `enroll`: the route.
* `recordEnrollAttempt`: what is kept of a refusal.

Which fingerprints are similar is a matter of floating point numbers and of string matching; the
decision is a parameter, and so are the hash and the text of a JSON object.
-/

namespace AssetInventory.Fleet

open PyJson PyTime Orm RowStore ReadCommitted Server

/-- How fingerprints are identified, and from when on. -/
structure Identification where
  sha256 : String → String
  /-- `json.dumps(fingerprint, sort_keys=True)`. -/
  dumpsSorted : Fingerprint → String
  /-- `is_same_machine`; `none` is an exception. -/
  isSameMachine : Fingerprint → Fingerprint → Option Bool
  /-- When the class `EnrollAttempt` was defined: the default of its column `created_at`. -/
  attemptDefinedAt : Time

variable (I : Identification)

/-! ## Fingerprints -/

/-- The components of a fingerprint with their weights, in tenths. -/
def components : List (String × ℕ) :=
  [("smbios_uuid", 5), ("machine_guid", 3), ("mainboard_serial", 2)]

/-- The components that are there, with their weights. -/
def presentComponents (fingerprint : Fingerprint) : List (Json × ℕ) :=
  components.filterMap fun (field, weight) =>
    ((lookup field fingerprint).filter Json.truthy).map fun value => (value, weight)

/-- `int(w * 32)` for the normalized weights, as floating point numbers give it. -/
def sliceLengths : List ℕ → List ℕ
  | [5, 3, 2] => [16, 9, 6]
  | [5, 3] => [20, 11]
  | [5, 2] => [22, 9]
  | [3, 2] => [19, 12]
  | [_] => [32]
  | _ => []

/-- A value that can be encoded. -/
def textOf : Json → Option String
  | .str s => some s
  | _ => none

/-- `compute_weighted_id`; `none` is an exception. -/
def computeWeightedId (fingerprint : Fingerprint) : Option String :=
  let present := presentComponents fingerprint
  if present = [] then some (I.sha256 (I.dumpsSorted fingerprint))
  else do
    let texts ← present.mapM fun (value, _) => textOf value
    let parts := List.zipWith (fun text n => truncate n (I.sha256 text)) texts
      (sliceLengths (present.map Prod.snd))
    return I.sha256 (join "" parts)

/-- The first candidate that is the same machine; the outer `none` is an exception. -/
def firstSame (fingerprint : Fingerprint) : List (Uuid × Machine) → Option (Option (Uuid × Machine))
  | [] => some none
  | x :: xs =>
    match I.isSameMachine fingerprint x.2.fingerprint with
    | none => none
    | some true => some (some x)
    | some false => firstSame fingerprint xs

/-! ## Queries -/

/-- The machines of an organisation. -/
def machinesOf (data : Data) (orgId : Uuid) : List (Uuid × Machine) :=
  data.machines.rowsWhere fun m => decide (m.orgId = orgId)

/-- The machines of an organisation with an id. -/
def machinesWith (data : Data) (orgId : Uuid) (machineUuid : String) : List (Uuid × Machine) :=
  data.machines.rowsWhere fun m => decide (m.orgId = orgId ∧ m.machineUuid = machineUuid)

/-- The lookup of a machine by organisation and id. -/
def exactMatch (data : Data) (orgId : Uuid) (machineUuid : String) :
    Option (Option (Uuid × Machine)) :=
  scalarOneOrNone (machinesWith data orgId machineUuid)

/-- `x or y` for texts. -/
def orText (x y : Option String) : Option String := if x.any fun s => decide (s ≠ "") then x else y

/-! ## Writes of the session -/

/-- A flush of a machine.  Nothing is sent when nothing has changed. -/
def flushMachine (id : Uuid) (base cur : Machine) : Handler Unit := do
  if base = cur then return ()
  else
    let _ ← .update (.machine id) fun _ => [.machine id base cur]
    return ()

def flushToken (id : Uuid) (base cur : EnrollToken) : Handler Unit := do
  if base = cur then return ()
  else
    let _ ← .update (.token id) fun _ => [.token id base cur]
    return ()

/-! ## Tags -/

def defaultClassification : String := "official"

def classificationKeys : List String := ["personal", "official", "bmnn"]

/-- `get_tag_by_key`. -/
def tagByKey (data : Data) (key : String) : Option Tag := data.tags.find? fun t => decide (t.key = key)

/-- `ensure_classification`: a tag for a machine without one. -/
def ensureClassification (machineId : Uuid) (key : String) (actor : Option Uuid) : Handler Unit := do
  let key := if key ∈ classificationKeys then key else defaultClassification
  let tag ← .select fun data => tagByKey data key
  match tag with
  | none => return ()
  | some tag =>
    let has ← .select fun data =>
      data.machineTags.any fun t => decide (t.machineId = machineId ∧ t.kind = .classification)
    if has then return ()
    else .insert (.newTag ⟨machineId, tag.id, .classification, actor⟩)

/-- Insert a row for each tag. -/
def insertTags (machineId : Uuid) (actor : Option Uuid) : List Tag → Handler Unit
  | [] => return ()
  | tag :: tags => do
    .insert (.newTag ⟨machineId, tag.id, .purpose, actor⟩)
    insertTags machineId actor tags

/-- The tags of a list of keys, each once, as far as they exist and are about the purpose. -/
def purposeTagsOf (data : Data) (keys : List String) : List Tag :=
  (keys.reverse.dedup.reverse.filterMap (tagByKey data)).filter fun t => decide (t.kind = .purpose)

def setMachinePurposeTags (machineId : Uuid) (keys : List String) (actor : Option Uuid) :
    Handler Unit := do
  let valid ← .select fun data => purposeTagsOf data keys
  .insert (.clearTags machineId .purpose)
  insertTags machineId actor valid

def applyTokenTags (machineId : Uuid) (token : EnrollToken) : Handler Unit := do
  ensureClassification machineId ((orText token.classification none).getD defaultClassification) none
  if token.purposeTags = [] then return ()
  else setMachinePurposeTags machineId token.purposeTags none

/-! ## Refusals -/

/-- Why an attempt is not recorded. -/
inductive RecordFailure where
  /-- An exception of `compute_weighted_id`. -/
  | weightedId
  /-- `MultipleResultsFound`, for the machines. -/
  | machines
  /-- `MultipleResultsFound`, for the attempts. -/
  | attempts (machineUuid : String) (tokenStatus : Refusal) (time : Time)
  deriving DecidableEq

/-- What has been recorded: which attempt, under what, when, and whether it has been added. -/
structure Recorded where
  attempt : Uuid
  machineUuid : String
  tokenStatus : Refusal
  time : Time
  added : Bool
  deriving DecidableEq

def recordEnrollAttempt (tokenStr : String) (tokenStatus : Refusal)
    (tokenRow : Option (Uuid × EnrollToken)) (hostname : Option String) (fingerprint : Fingerprint)
    (ip : Option String) : Handler (Except RecordFailure Recorded) := do
  let time ← now
  match computeWeightedId I fingerprint with
  | none => return .error .weightedId
  | some weighted =>
    let matched ← .select fun data =>
      tokenRow.elim (some none) fun row => exactMatch data row.2.orgId weighted
    match matched with
    | none => return .error .machines
    | some matched =>
      let recent ← .select fun data => scalarOneOrNone (data.attempts.rowsWhere fun a =>
        decide (a.machineUuid = weighted ∧ a.tokenStatus = tokenStatus ∧ a.status = .pending ∧
          time - minutes (24 * 60) ≤ a.createdAt))
      match recent with
      | none => return .error (.attempts weighted tokenStatus time)
      | some (some (id, row)) =>
        let _ ← .update (.attempt id) fun _ => [.attempt id row
          { row with
            hostname := orText hostname row.hostname
            ip := orText ip row.ip
            fingerprint := if fingerprint = [] then row.fingerprint else fingerprint
            createdAt := time }]
        return .ok ⟨id, weighted, tokenStatus, time, false⟩
      | some none =>
        let id ← .fresh
        .insert (.newAttempt id
          { orgId := tokenRow.map fun row => row.2.orgId
            tokenId := tokenRow.map Prod.fst
            tokenStatus := tokenStatus
            tokenPrefix := truncate 8 tokenStr ++ "…"
            machineUuid := weighted
            hostname := hostname
            ip := ip
            fingerprint := fingerprint
            matchedMachineId := matched.map Prod.fst
            status := .pending
            note := none
            decidedBy := none
            decidedAt := none
            createdAt := I.attemptDefinedAt })
        return .ok ⟨id, weighted, tokenStatus, time, true⟩

/-- A refusal: the attempt is recorded and committed. -/
def refuse {α : Type} (tokenStr : String) (tokenStatus : Refusal)
    (tokenRow : Option (Uuid × EnrollToken)) (hostname : Option String) (fingerprint : Fingerprint)
    (ip : Option String) (detail : String) : Handler (Except HttpError α) := do
  let recorded ← recordEnrollAttempt I tokenStr tokenStatus tokenRow hostname fingerprint ip
  match recorded with
  | .error _ => serverError
  | .ok _ =>
    .publish []
    httpError 401 detail

/-! ## Enrollment -/

/-- What `perform_enroll` hands on. -/
structure Enrollment where
  machineId : Uuid
  /-- The machine as it was last flushed. -/
  base : Machine
  machine : Machine
  isNew : Bool
  /-- The machine was found decommissioned. -/
  reenrolled : Bool
  tokenId : Uuid
  token : EnrollToken

/-- The machine that enrolls: by its id, or by a similar fingerprint.  The outer `none` is an
exception. -/
def findMachine (orgId : Uuid) (weighted : String) (fingerprint : Fingerprint) :
    Handler (Option (Option (Uuid × Machine))) := do
  let existing ← .select fun data => exactMatch data orgId weighted
  match existing with
  | none => return none
  | some (some x) => return some (some x)
  | some none =>
    let rank ← .answer Env.rank
    let candidates ← .select fun data => inOrder rank (machinesOf data orgId)
    return firstSame I fingerprint candidates

/-- The user to whom a new machine is assigned. -/
def assignedUser (data : Data) (email : Option String) : Option (Option (Uuid × User)) :=
  match orText email none with
  | none => some none
  | some email => scalarOneOrNone (data.users.rowsWhere fun u => decide (u.email = email))

/-- A machine that has not been there. -/
def insertMachine (tokenId : Uuid) (token : EnrollToken) (hostname : Option String)
    (fingerprint : Fingerprint) (weighted : String) (time : Time) :
    Handler (Except HttpError Enrollment) := do
  let user ← .select fun data => assignedUser data token.email
  match user with
  | none => serverError
  | some user =>
    let id ← .fresh
    let machine : Machine :=
      { orgId := token.orgId
        machineUuid := weighted
        hostname := hostname
        fingerprint := fingerprint
        status := .pending
        lifecycle := .new
        isVm := none
        enrolledAt := time
        lastSeenAt := some time
        assignedUserId := user.map Prod.fst
        note := none
        publicIp := none }
    .insert (.newMachine id machine)
    applyTokenTags id token
    return .ok ⟨id, machine, machine, true, false, tokenId, token⟩

/-- The reason of a change of the fingerprint; `none` is an exception. -/
def driftReason (fingerprint stored : Fingerprint) : Option String :=
  if stored = [] then some "os_reinstall"
  else (I.isSameMachine fingerprint stored).map fun same => if same then "other" else "os_reinstall"

/-- The columns that an enrollment changes in a machine that has been there.  A decommissioned one
waits for an administrator again. -/
def Machine.enrolledAgain (m : Machine) (hostname : Option String) (time : Time) : Machine :=
  { m with
    hostname := orText hostname m.hostname
    lastSeenAt := some time
    status := if m.status = .decommissioned then .pending else .online }

/-- A machine that has been there, with a change of its fingerprint if its id is another one. -/
def updateMachine (id : Uuid) (row : Machine) (tokenId : Uuid) (token : EnrollToken)
    (hostname : Option String) (fingerprint : Fingerprint) (weighted : String) (time : Time) :
    Handler (Except HttpError Enrollment) := do
  let cur := row.enrolledAgain hostname time
  let reenrolled := decide (row.status = .decommissioned)
  if row.machineUuid = weighted then
    return .ok ⟨id, row, cur, false, reenrolled, tokenId, token⟩
  else
    flushMachine id row cur
    let already ← .select fun data => scalarOneOrNone (data.drifts.rowsWhere fun x =>
      decide (x.machineId = id ∧ x.status = .pending))
    match already with
    | none => serverError
    | some (some _) => return .ok ⟨id, cur, cur, false, reenrolled, tokenId, token⟩
    | some none =>
      match driftReason I fingerprint row.fingerprint with
      | none => serverError
      | some reason =>
        let driftId ← .fresh
        .insert (.newDrift driftId ⟨id, row.fingerprint, fingerprint, reason, .pending, none, none⟩)
        return .ok ⟨id, cur, cur, false, reenrolled, tokenId, token⟩

/-- The second half of `perform_enroll`: the token is good. -/
def enrollMachine (tokenId : Uuid) (token : EnrollToken) (hostname : Option String)
    (fingerprint : Fingerprint) (time : Time) : Handler (Except HttpError Enrollment) := do
  match computeWeightedId I fingerprint with
  | none => serverError
  | some weighted =>
    let found ← findMachine I token.orgId weighted fingerprint
    match found with
    | none => serverError
    | some none => insertMachine tokenId token hostname fingerprint weighted time
    | some (some (id, row)) =>
      updateMachine I id row tokenId token hostname fingerprint weighted time

def performEnroll (tokenStr : String) (hostname : Option String) (fingerprint : Fingerprint)
    (ip : Option String) : Handler (Except HttpError Enrollment) := do
  let found ← .select fun data =>
    scalarOneOrNone (data.tokens.rowsWhere fun t => decide (t.tokenHash = I.sha256 tokenStr))
  match found with
  | none => serverError
  | some none => refuse I tokenStr .unknown none hostname fingerprint ip "Token không tồn tại"
  | some (some (tokenId, token)) =>
    let time ← now
    if token.status = .revoked then
      refuse I tokenStr .revoked (some (tokenId, token)) hostname fingerprint ip
        "Token đã bị thu hồi"
    else if token.status = .used then
      refuse I tokenStr .used (some (tokenId, token)) hostname fingerprint ip "Token đã dùng"
    else if token.expiresAt < time then
      flushToken tokenId token { token with status := .expired }
      refuse I tokenStr .expired (some (tokenId, token)) hostname fingerprint ip "Token hết hạn"
    else enrollMachine I tokenId token hostname fingerprint time

/-- `EnrollRequest`, with the address it comes from. -/
structure EnrollRequest where
  token : String
  smbiosUuid : Option String
  machineGuid : Option String
  mainboardSerial : Option String
  hostname : Option String
  ip : Option String

/-- `body.fingerprint.model_dump(exclude_none=True)`. -/
def EnrollRequest.fingerprint (body : EnrollRequest) : Fingerprint :=
  [("smbios_uuid", body.smbiosUuid), ("machine_guid", body.machineGuid),
    ("mainboard_serial", body.mainboardSerial)].filterMap fun (field, value) =>
      value.map fun text => (field, Json.str text)

structure EnrollResponse where
  machineId : Uuid
  clientCertPem : String
  isNewMachine : Bool
  status : MachineStatus

/-- What the commit of an enrollment announces. -/
def Enrollment.notes (e : Enrollment) : List Note :=
  .enrolled e.tokenId e.machineId :: if e.reenrolled then [.reenrolled e.machineId] else []

/-- A token that has been used. -/
def EnrollToken.usedFor (token : EnrollToken) (machineId : Uuid) (time : Time) : EnrollToken :=
  { token with status := .used, usedAt := some time, usedBy := some machineId }

def enroll (body : EnrollRequest) : Handler (Except HttpError EnrollResponse) := do
  let performed ← performEnroll I body.token body.hostname body.fingerprint body.ip
  match performed with
  | .error e => return .error e
  | .ok e =>
    let certificate ← .answer Env.certificate
    match certificate with
    | none => serverError
    | some pem =>
      let time ← now
      flushMachine e.machineId e.base e.machine
      flushToken e.tokenId e.token (e.token.usedFor e.machineId time)
      .publish e.notes
      return .ok ⟨e.machineId, pem, e.isNew, e.machine.status⟩

end AssetInventory.Fleet

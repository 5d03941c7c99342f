import AssetInventory.Fleet.Tokens
import AssetInventory.Lib.LateKeys
import AssetInventory.Lib.PyUrl
import AssetInventory.Server.LoginNames

/-!
# What the audit log says of new rows

Three routes insert a row and write of it in the audit log.  The key of the row is drawn when it is inserted, and the
first thing that sends it is the query of `append_audit`, which is made when the arguments of the call are there.

* `appendAudit`, `createToken`, `reissueToken`, `createUser`: the routes, over a session with late keys.
* `Names`: the entry, and the note of the token that is replaced, name the new row.
* `createToken_spec`, `reissueToken_spec`, `createUser_spec`: what each route leaves behind.
* `not_names`: a request that succeeds leaves the text `None` where the key is expected.
-/

namespace AssetInventory.AuditTargets

open PyJson PyTime PyUrl RowStore Server LateKeys

/-! ## Tables -/

/-- A row of `enroll_tokens`, with the columns that only these routes write. -/
structure TokenRow extends Fleet.EnrollToken where
  department : Option String
  position : Option String
  phoneEncrypted : Option String

/-- The tables. -/
structure Data where
  organizations : List OrgRow
  users : Table Uuid User
  tokens : Table Uuid TokenRow
  audit : List AuditLog

/-- `INSERT INTO enroll_tokens`: the hash is unique, and the organisation and the creator exist. -/
def insertToken (row : TokenRow) (key : Uuid) (data : Data) : Option Data :=
  if data.tokens.get key = none ∧ (data.tokens.rowsWhere fun t => decide (t.tokenHash = row.tokenHash)).isEmpty ∧
      row.orgId ∈ data.organizations.map OrgRow.id ∧ (data.users.get row.createdBy).isSome then
    some { data with tokens := data.tokens.insert key row }
  else none

/-- `INSERT INTO users`: the address is unique, and the organisation exists. -/
def insertUser (row : User) (key : Uuid) (data : Data) : Option Data :=
  if data.users.get key = none ∧ (data.users.rowsWhere fun u => decide (u.email = row.email)).isEmpty ∧
      row.orgId ∈ data.organizations.map OrgRow.id then
    some { data with users := data.users.insert key row }
  else none

/-- `INSERT INTO audit_log`. -/
def insertAudit (row : ℕ → AuditLog) (key : ℕ) (data : Data) : Option Data :=
  some { data with audit := data.audit ++ [row key] }

/-- `UPDATE enroll_tokens SET note`; the session expects that it finds one row. -/
def setNote (tokenId : Uuid) (note : String) (data : Data) : Option Data :=
  if (data.tokens.get tokenId).isSome then
    some { data with tokens := data.tokens.modify tokenId fun t => { t with note := some note } }
  else none

/-! ## Routes -/

/-- What a request finds outside the database. -/
structure World where
  /-- The keys that are drawn. -/
  keys : ℕ → Uuid
  /-- The clock. -/
  now : Time
  /-- `generate_enroll_token()`. -/
  token : String
  /-- The hexadecimal SHA-256 digest of a text. -/
  sha256 : String → String
  encryptPhone : String → String
  hashPassword : String → String
  unicode : UnicodeData
  /-- The depth that a recursion may have. -/
  depth : ℕ

/-- Code of a request. -/
abbrev Work := LateKeys.Work Data HttpError

/-- An exception that no handler catches. -/
def unhandled : HttpError := ⟨500, "Internal Server Error"⟩

/-- `HTTPException(status, detail)`. -/
def httpError {α : Type} (statusCode : ℕ) (detail : String) : Work α := raise ⟨statusCode, detail⟩

/-- `str` of a key. -/
def strKey : Option Uuid → String
  | none => "None"
  | some key => uuidText key

variable (w : World)

def select {α : Type} (query : Data → α) : Work α := LateKeys.select w.keys unhandled query

/-- `db.commit()`. -/
def commit : Work Unit := LateKeys.commit w.keys unhandled

def appendAudit (action : String) (actor target ip : Option String) : Work Unit := do
  let prev ← select w fun data => getLastHash data.audit
  let _ ← add <| insertAudit fun id =>
    { id := id
      actor := actor
      action := action
      target := target
      ts := w.now
      ip := ip
      prevHash := prev
      contentHash := contentHash w.sha256 ⟨action, target, actor, w.now⟩
      requestId := none
      machineId := none }
  flush w.keys unhandled

structure TokenCreateRequest where
  orgId : Uuid
  fullName : Option String
  department : Option String
  position : Option String
  email : Option String
  phone : Option String
  note : Option String
  ttlHours : ℤ
  classification : Option String
  purposeTags : List String

/-- `encrypt_phone(body.phone) if body.phone else None`. -/
def phoneOf (phone : Option String) : Option String :=
  (phone.filter fun s => decide (s ≠ "")).map w.encryptPhone

/-- The row that `create_token` adds. -/
def TokenCreateRequest.row (body : TokenCreateRequest) (createdBy : Uuid) : TokenRow where
  tokenHash := w.sha256 w.token
  orgId := body.orgId
  createdBy := createdBy
  fullName := body.fullName
  email := body.email
  note := body.note
  expiresAt := w.now + minutes (body.ttlHours * 60)
  usedAt := none
  usedBy := none
  status := .pending
  classification := body.classification
  purposeTags := body.purposeTags
  department := body.department
  position := body.position
  phoneEncrypted := phoneOf w body.phone

/-- Who calls, with the id, and from where. -/
structure Caller where
  id : Uuid
  user : User
  ip : Option String

/-- The organisations that the caller sees; too deep a recursion raises `RecursionError`. -/
def visible (caller : Caller) : Work (Finset Uuid) := do
  let found ← select w fun data => visibleOrgIds w.depth data.organizations caller.user
  match found with
  | none => raise unhandled
  | some ids => return ids

/-- `create_token`, up to the commit. -/
def createToken (body : TokenCreateRequest) (caller : Caller) : Work Unit := do
  if caller.user.role ∉ Fleet.adminRoles then httpError 403 "Không có quyền"
  else
    let orgs ← visible w caller
    if body.orgId ∉ orgs then httpError 403 Fleet.noTokenRight
    else
      let row ← add (insertToken (body.row w caller.id))
      let target ← keyOf row
      appendAudit w "token.create" (some (uuidText caller.id)) (some (strKey target)) caller.ip
      commit w

/-- The row that `reissue_token` adds. -/
def TokenRow.again (old : TokenRow) (createdBy : Uuid) : TokenRow where
  tokenHash := w.sha256 w.token
  orgId := old.orgId
  createdBy := createdBy
  fullName := old.fullName
  email := old.email
  note := some (old.note.getD "" ++ " [reissue]")
  expiresAt := w.now + minutes (72 * 60)
  usedAt := none
  usedBy := none
  status := .pending
  classification := old.classification
  purposeTags := old.purposeTags
  department := old.department
  position := old.position
  phoneEncrypted := old.phoneEncrypted

/-- The note of a token that is replaced. -/
def TokenRow.superseded (old : TokenRow) (key : Option Uuid) : String :=
  old.note.getD "" ++ " [superseded by " ++ strKey key ++ "]"

/-- `reissue_token`, up to the commit. -/
def reissueToken (tokenId : Uuid) (caller : Caller) : Work Unit := do
  if caller.user.role ∉ Fleet.adminRoles then httpError 403 "Không có quyền"
  else
    let old ← select w fun data => data.tokens.get tokenId
    match old with
    | none => httpError 404 "Token không tồn tại"
    | some old =>
      let orgs ← visible w caller
      if old.orgId ∉ orgs then httpError 403 "Không có quyền thao tác token này"
      else if old.status = .used then
        httpError 400 "Token đã used — không tái sinh được. Sinh token mới."
      else if old.status = .revoked then
        httpError 400 "Token đã revoked — không tái sinh được. Sinh token mới."
      else
        let row ← add (insertToken (old.again w caller.id))
        let named ← keyOf row
        assign (setNote tokenId (old.superseded named))
        flush w.keys unhandled
        let target ← keyOf row
        appendAudit w "token.reissue" (some (uuidText caller.id)) (some (strKey target)) caller.ip
        commit w

structure UserCreateRequest where
  email : String
  fullName : String
  role : UserRole
  orgId : Uuid
  password : String
  phone : Option String

/-- The row that `create_user` adds. -/
def UserCreateRequest.row (body : UserCreateRequest) (email : String) : User where
  orgId := body.orgId
  fullName := body.fullName
  email := email
  phoneEncrypted := phoneOf w body.phone
  role := body.role
  passwordHash := some (w.hashPassword body.password)
  totpSecretEncrypted := none
  backupCodes := none
  is2faEnabled := false
  isActive := true
  lastLoginAt := none
  mustChangePassword := true
  totpLastCounter := none

/-- The refusal of an address that is in use. -/
def emailInUse : HttpError := ⟨409, "Email đã tồn tại"⟩

def createUser (body : UserCreateRequest) (caller : Caller) : Work Unit := do
  if caller.user.role ∉ superRoles then httpError 403 "Không có quyền"
  else
    let email := loginId w.unicode body.email
    let dup ← select w fun data => !(data.users.rowsWhere fun u => decide (u.email = email)).isEmpty
    if dup = true then raise emailInUse
    else
      let org ← select w fun data => decide (body.orgId ∈ data.organizations.map OrgRow.id)
      if org = false then httpError 404 "Tổ chức không tồn tại"
      else
        let user ← add (insertUser (body.row w email))
        let target ← keyOf user
        appendAudit w "user.create" (some (uuidText caller.id)) (some (strKey target)) caller.ip
        flush w.keys emailInUse
        commit w

/-- A request for a new row. -/
inductive CreateRequest where
  | token (body : TokenCreateRequest)
  | reissue (tokenId : Uuid)
  | user (body : UserCreateRequest)

/-- The code of a request. -/
def handle (caller : Caller) : CreateRequest → Work Unit
  | .token body => createToken w body caller
  | .reissue tokenId => reissueToken w tokenId caller
  | .user body => createUser w body caller

/-! ## What is expected -/

/-- The log has one entry more, with this target. -/
def Recorded (before after : Data) (target : String) : Prop :=
  ∃ entry : AuditLog, after.audit = before.audit ++ [entry] ∧ entry.target = some target

/-- A token has been inserted under this key. -/
def NewToken (before after : Data) (key : Uuid) : Prop :=
  before.tokens.get key = none ∧ (after.tokens.get key).isSome = true

/-- A user has been inserted under this key. -/
def NewUser (before after : Data) (key : Uuid) : Prop :=
  before.users.get key = none ∧ (after.users.get key).isSome = true

/-- The note of a token that is replaced has this key. -/
def NotedBy (before after : Data) (tokenId key : Uuid) : Prop :=
  ∃ old new, before.tokens.get tokenId = some old ∧ after.tokens.get tokenId = some new ∧
    new.note = some (old.superseded (some key))

/-- **What a request leaves behind names the row that it has inserted.** -/
def Names (before after : Data) : CreateRequest → Prop
  | .token _ => ∃ key, NewToken before after key ∧ Recorded before after (uuidText key)
  | .reissue tokenId => ∃ key, NewToken before after key ∧ Recorded before after (uuidText key) ∧
    NotedBy before after tokenId key
  | .user _ => ∃ key, NewUser before after key ∧ Recorded before after (uuidText key)

/-! ## What the routes do -/

section Specs

variable {w : World} {caller : Caller} {data : Data} {s t u : Session Data}

theorem select_settled {α : Type} {query : Data → α} {a : α} (hs : s.unsent = []) :
    select w query s = .ok (a, t) ↔ a = query s.data ∧ t = s := by
  refine select_eq_ok.trans ?_
  rw [sendAll_of_nil hs, Option.some.injEq]
  constructor
  · rintro ⟨rfl, rfl⟩
    exact ⟨rfl, rfl⟩
  · rintro ⟨rfl, rfl⟩
    exact ⟨rfl, rfl⟩

/-- An entry has the target that was passed, whatever is sent by the query of `append_audit`. -/
theorem appendAudit_spec {action target : String} {actor ip : Option String}
    (h : appendAudit w action actor (some target) ip s = .ok ((), u)) :
    ∃ t entry, sendAll w.keys s = some t ∧ entry.target = some target ∧ u.unsent =
    [] ∧ u.committed = s.committed ∧
      u.data = { t.data with audit := t.data.audit ++ [entry] } := by
  unfold appendAudit at h
  obtain ⟨prev, t, hprev, h⟩ := bind_eq_ok.mp h
  obtain ⟨hsend, rfl⟩ := select_eq_ok.mp hprev
  obtain ⟨place, t', hadd, h⟩ := bind_eq_ok.mp h
  cases hadd
  have hflush := flush_eq_ok.mp h
  have hunsent := unsent_of_sendAll hflush
  have hcommitted := committed_of_sendAll hflush
  have hbefore := committed_of_sendAll hsend
  rw [sendAll, unsent_of_sendAll hsend] at hflush
  have hsent := Option.some.inj hflush
  refine ⟨t, _, hsend, ?_, hunsent, hcommitted.trans hbefore, (congrArg Session.data hsent).symm⟩
  rfl

theorem visible_settled {orgs : Finset Uuid} (hs : s.unsent = [])
    (h : visible w caller s = .ok (orgs, t)) : t = s := by
  unfold visible at h
  obtain ⟨found, t', hfound, h⟩ := bind_eq_ok.mp h
  obtain ⟨-, rfl⟩ := (select_settled hs).mp hfound
  cases found with
  | none => exact absurd h raise_eq_ok.mp
  | some ids => exact (pure_eq_ok.mp h).2

theorem createToken_spec {body : TokenCreateRequest}
    (h : createToken w body caller (.start data) = .ok ((), s)) :
    ∃ d entry, insertToken (body.row w caller.id)
    (w.keys 0) data = some d ∧ entry.target = some "None" ∧
      s.committed = { d with audit := d.audit ++ [entry] } := by
  unfold createToken at h
  obtain ⟨orgs, s₁, hvisible, h⟩ := bind_eq_ok.mp (ite_raise_eq_ok.mp h).2
  obtain rfl := visible_settled rfl hvisible
  replace h := (ite_raise_eq_ok.mp h).2
  obtain ⟨row, s₂, hadd, h⟩ := bind_eq_ok.mp h
  cases hadd
  obtain ⟨target, s₃, hkey, h⟩ := bind_eq_ok.mp h
  rw [keyOf_of_le (le_refl 0)] at hkey
  cases hkey
  obtain ⟨⟨⟩, s₄, haudit, h⟩ := bind_eq_ok.mp h
  obtain ⟨t, entry, hsend, htarget, hunsent, -, hdata⟩ := appendAudit_spec haudit
  obtain ⟨d, hinsert, rfl⟩ := (sendAll_insert (s := .start data) rfl).mp hsend
  obtain ⟨u, hu, rfl⟩ := commit_eq_ok.mp h
  rw [sendAll_of_nil hunsent] at hu
  cases hu
  exact ⟨d, entry, hinsert, htarget, hdata⟩

variable {tokenId key : Uuid}

/-- What `reissue_token` leaves behind: the flush stands between the note and the entry. -/
theorem reissueToken_spec (h : reissueToken w tokenId caller (.start data) = .ok ((), s)) :
    ∃ old d d' entry, data.tokens.get tokenId = some old ∧
      insertToken (old.again w caller.id) (w.keys 0) data = some d ∧
      setNote tokenId (old.superseded none) d = some d' ∧ entry.target = some (uuidText (w.keys 0)) ∧
      s.committed = { d' with audit := d'.audit ++ [entry] } := by
  unfold reissueToken at h
  obtain ⟨found, s₁, hfound, h⟩ := bind_eq_ok.mp (ite_raise_eq_ok.mp h).2
  obtain ⟨hold, rfl⟩ := (select_settled rfl).mp hfound
  cases found with
  | none => exact absurd h raise_eq_ok.mp
  | some old =>
    obtain ⟨orgs, s₂, hvisible, h⟩ := bind_eq_ok.mp h
    obtain rfl := visible_settled rfl hvisible
    replace h := (ite_raise_eq_ok.mp (ite_raise_eq_ok.mp (ite_raise_eq_ok.mp h).2).2).2
    obtain ⟨row, s₃, hadd, h⟩ := bind_eq_ok.mp h
    cases hadd
    obtain ⟨named, s₄, hnamed, h⟩ := bind_eq_ok.mp h
    rw [keyOf_of_le (le_refl 0)] at hnamed
    cases hnamed
    obtain ⟨⟨⟩, s₅, hassign, h⟩ := bind_eq_ok.mp h
    cases hassign
    obtain ⟨⟨⟩, s₆, hflush, h⟩ := bind_eq_ok.mp h
    obtain ⟨d, d', hinsert, hnote, rfl⟩ := (sendAll_insert_update (s := .start data) rfl).mp (flush_eq_ok.mp hflush)
    obtain ⟨target, s₇, htarget, h⟩ := bind_eq_ok.mp h
    cases htarget
    obtain ⟨⟨⟩, s₈, haudit, h⟩ := bind_eq_ok.mp h
    obtain ⟨t, entry, hsend, hentry, hunsent, -, hdata⟩ := appendAudit_spec haudit
    cases (sendAll_of_nil (s := ⟨data, d', [], [w.keys 0]⟩) rfl).symm.trans hsend
    obtain ⟨u, hu, rfl⟩ := commit_eq_ok.mp h
    rw [sendAll_of_nil hunsent] at hu
    cases hu
    exact ⟨old, d, d', entry, hold.symm, hinsert, hnote, hentry, hdata⟩

theorem createUser_spec {body : UserCreateRequest}
    (h : createUser w body caller (.start data) = .ok ((), s)) :
    ∃ d entry, insertUser (body.row w (loginId w.unicode body.email)) (w.keys 0) data = some d ∧
      entry.target = some "None" ∧ s.committed = { d with audit := d.audit ++ [entry] } := by
  unfold createUser at h
  obtain ⟨dup, s₁, hdup, h⟩ := bind_eq_ok.mp (ite_raise_eq_ok.mp h).2
  obtain ⟨-, rfl⟩ := (select_settled rfl).mp hdup
  obtain ⟨org, s₂, horg, h⟩ := bind_eq_ok.mp (ite_raise_eq_ok.mp h).2
  obtain ⟨-, rfl⟩ := (select_settled rfl).mp horg
  obtain ⟨user, s₃, hadd, h⟩ := bind_eq_ok.mp (ite_raise_eq_ok.mp h).2
  cases hadd
  obtain ⟨target, s₄, hkey, h⟩ := bind_eq_ok.mp h
  rw [keyOf_of_le (le_refl 0)] at hkey
  cases hkey
  obtain ⟨⟨⟩, s₅, haudit, h⟩ := bind_eq_ok.mp h
  obtain ⟨t, entry, hsend, htarget, hunsent, -, hdata⟩ := appendAudit_spec haudit
  obtain ⟨d, hinsert, rfl⟩ := (sendAll_insert (s := .start data) rfl).mp hsend
  obtain ⟨⟨⟩, s₆, hflush, h⟩ := bind_eq_ok.mp h
  cases (sendAll_of_nil hunsent).symm.trans (flush_eq_ok.mp hflush)
  obtain ⟨u, hu, rfl⟩ := commit_eq_ok.mp h
  cases (sendAll_of_nil hunsent).symm.trans hu
  exact ⟨d, entry, hinsert, htarget, hdata⟩

end Specs

/-! ## What is written instead -/

theorem uuidText_ne_none (key : Uuid) : uuidText key ≠ "None" := by
  intro h
  have hdash : '-' ∈ (uuidText key).toList := by
    rw [uuidText, String.toList_ofList]
    exact List.mem_append_right _ List.mem_cons_self
  rw [h] at hdash
  exact absurd hdash (by decide)

variable {old row : TokenRow}

theorem superseded_inj {key key' : Option Uuid} (h : old.superseded key = old.superseded key') :
    strKey key = strKey key' := by
  unfold TokenRow.superseded at h
  exact String.append_right_inj _ |>.mp (String.append_left_inj _ |>.mp h)

variable {data d : Data}

theorem audit_insertToken {key : Uuid} (h : insertToken row key data = some d) :
    d.audit = data.audit := by
  unfold insertToken at h
  split_ifs at h
  cases h
  rfl

theorem get_insertToken {key tokenId : Uuid}
    (h : insertToken row key data = some d) (hold : data.tokens.get tokenId = some old) :
    d.tokens.get tokenId = some old := by
  unfold insertToken at h
  split_ifs at h
  cases h
  exact Table.get_insert_of_get hold

theorem setNote_spec {tokenId : Uuid} {note : String}
    (h : setNote tokenId note data = some d) (hold : data.tokens.get tokenId = some old) :
    d.audit = data.audit ∧ d.tokens.get tokenId = some { old with note := some note } := by
  unfold setNote at h
  split_ifs at h
  cases h
  refine ⟨rfl, ?_⟩
  show (data.tokens.modify _ _).get _ = _
  rw [Table.get_modify_self, hold]
  rfl

theorem audit_insertUser {key : Uuid} {row : User} (h : insertUser row key data = some d) :
    d.audit = data.audit := by
  unfold insertUser at h
  split_ifs at h
  cases h
  rfl

theorem not_recorded {key : Uuid} {before after : Data} {entry : AuditLog}
    (haudit : d.audit = before.audit)
    (hafter : after = { d with audit := d.audit ++ [entry] }) (htarget : entry.target = some "None") :
    ¬Recorded before after (uuidText key) := by
  rintro ⟨entry', heq, htarget'⟩
  rw [hafter, ← haudit] at heq
  have hentry := List.append_cancel_left heq
  cases hentry
  rw [htarget] at htarget'
  exact uuidText_ne_none key (Option.some.inj htarget').symm

/-- **No request that succeeds names the row that it has inserted.** -/
theorem not_names (w : World) (caller : Caller) (request : CreateRequest) (data : Data)
    {s : Session Data}
    (h : handle w caller request (.start data) = .ok ((), s)) : ¬Names data s.committed request := by
  cases request with
  | token body =>
    obtain ⟨d, entry, hinsert, htarget, hafter⟩ := createToken_spec h
    exact fun ⟨key, _, hrecorded⟩ => not_recorded (audit_insertToken hinsert) hafter htarget hrecorded
  | user body =>
    obtain ⟨d, entry, hinsert, htarget, hafter⟩ := createUser_spec h
    exact fun ⟨key, _, hrecorded⟩ => not_recorded (audit_insertUser hinsert) hafter htarget hrecorded
  | reissue tokenId =>
    -- the entry names the new row here, and the note does not
    obtain ⟨old, d, d', entry, hold, hinsert, hnote, -, hafter⟩ := reissueToken_spec h
    obtain ⟨-, hget⟩ := setNote_spec hnote (get_insertToken hinsert hold)
    rintro ⟨key, -, -, old', new, hold', hnew, heq⟩
    cases hold.symm.trans hold'
    rw [hafter] at hnew
    cases hget.symm.trans hnew
    exact uuidText_ne_none key (superseded_inj (Option.some.inj heq)).symm

/-! ## One organisation -/

def oneUser : User := { userWith "admin@example.gov.vn" with orgId := 1, role := .superAdmin }

/-- The administrator, and a token that nobody has used. -/
def oneOrg : Data where
  organizations := [⟨1, none⟩]
  users := Table.empty.insert 7 oneUser
  tokens := Table.empty.insert 5
    ⟨⟨"hash", 1, 7, none, none, none, 0, none, none, .pending, none, []⟩, none, none, none⟩
  audit := []

def oneAdmin : Caller := ⟨7, oneUser, none⟩

/-- A world with distinct keys. -/
def oneWorld : World where
  keys := fun n => n + 10
  now := 0
  token := "token"
  sha256 := id
  encryptPhone := id
  hashPassword := id
  unicode := asciiData
  depth := 10

/-- Nothing but the organisation. -/
def oneBody : TokenCreateRequest := ⟨1, none, none, none, none, none, none, 72, none, []⟩

theorem isOk_handle (request : CreateRequest)
    (h : (handle oneWorld oneAdmin request (.start oneOrg)).isOk = true) :
    ∃ s, handle oneWorld oneAdmin request (.start oneOrg) = .ok ((), s) := by
  cases hrun : handle oneWorld oneAdmin request (.start oneOrg) with
  | error e =>
    rw [hrun] at h
    cases h
  | ok p => exact ⟨p.2, rfl⟩

/-- **A token is issued again**, and its note names nothing. -/
theorem not_names_reissued : ∃ s, handle oneWorld oneAdmin (.reissue 5) (.start oneOrg) = .ok
    ((), s) ∧
    ¬Names oneOrg s.committed (.reissue 5) := by
  obtain ⟨s, hs⟩ := isOk_handle (.reissue 5) (by decide +kernel)
  exact ⟨s, hs, not_names oneWorld oneAdmin (.reissue 5) oneOrg hs⟩

/-- **A token is created**, and the log says `None` of it. -/
theorem none_recorded : ∃ s, handle oneWorld oneAdmin (.token oneBody) (.start oneOrg) = .ok ((), s) ∧
    Recorded oneOrg s.committed "None" ∧ ¬Names oneOrg s.committed (.token oneBody) := by
  obtain ⟨s, hs⟩ := isOk_handle (.token oneBody) (by decide +kernel)
  obtain ⟨d, entry, hinsert, htarget, hafter⟩ := createToken_spec hs
  refine ⟨s, hs, ⟨entry, ?_, htarget⟩, fun ⟨key, _, hrecorded⟩ => ?_⟩
  · rw [hafter, ← audit_insertToken hinsert]
  · exact not_recorded (audit_insertToken hinsert) hafter htarget hrecorded

end AssetInventory.AuditTargets

import AssetInventory.Dfir.Callback
import AssetInventory.Lib.ReadCommitted
import AssetInventory.Lib.Table

/-!
# The tables of the accounts

Users, refresh tokens and the audit log, as far as the routes for authentication and for the
administration of users use them, and the statements of these routes.

* `User`, `RefreshToken`, `AuditLog`: the rows; `Data`: the tables.
* `DataWrite`: what a statement writes.  The session writes the columns of a user that have changed.
* `Handler`: the programs of the routes; `Env`: what the world outside answers them.
* `Note`: what a commit has done, for the statements about runs.

A random UUID and a serial number are drawn from one supply of numbers.
-/

namespace AssetInventory.Server

open PyTime Orm RowStore ReadCommitted

/-- A primary key. -/
abbrev Uuid := ℕ

inductive UserRole where
  | superAdmin | orgAdmin | viewer
  /-- `admin_global` and `admin_org` are the old names of the first two. -/
  | adminGlobal | adminOrg
  deriving DecidableEq

/-- A row of `users`. -/
structure User where
  orgId : Uuid
  fullName : String
  email : String
  phoneEncrypted : Option String
  role : UserRole
  passwordHash : Option String
  totpSecretEncrypted : Option String
  backupCodes : Option (List String)
  is2faEnabled : Bool
  isActive : Bool
  lastLoginAt : Option Time
  mustChangePassword : Bool
  totpLastCounter : Option ℤ
  deriving DecidableEq

/-- An `UPDATE` of a user: the columns in which the object differs from what was loaded. -/
def User.writeBack (base cur stored : User) : User where
  orgId := pick base.orgId cur.orgId stored.orgId
  fullName := pick base.fullName cur.fullName stored.fullName
  email := pick base.email cur.email stored.email
  phoneEncrypted := pick base.phoneEncrypted cur.phoneEncrypted stored.phoneEncrypted
  role := pick base.role cur.role stored.role
  passwordHash := pick base.passwordHash cur.passwordHash stored.passwordHash
  totpSecretEncrypted :=
    pick base.totpSecretEncrypted cur.totpSecretEncrypted stored.totpSecretEncrypted
  backupCodes := pick base.backupCodes cur.backupCodes stored.backupCodes
  is2faEnabled := pick base.is2faEnabled cur.is2faEnabled stored.is2faEnabled
  isActive := pick base.isActive cur.isActive stored.isActive
  lastLoginAt := pick base.lastLoginAt cur.lastLoginAt stored.lastLoginAt
  mustChangePassword :=
    pick base.mustChangePassword cur.mustChangePassword stored.mustChangePassword
  totpLastCounter := pick base.totpLastCounter cur.totpLastCounter stored.totpLastCounter

/-- A row of `refresh_tokens`.  Distinct tokens have distinct hashes, so a hash stands for the `jti` of
its token here. -/
structure RefreshToken where
  userId : Uuid
  tokenHash : ℕ
  familyId : Uuid
  expiresAt : Time
  revokedAt : Option Time
  replacedBy : Option Uuid
  deriving DecidableEq

/-- A row of `audit_log`. -/
structure AuditLog where
  id : ℕ
  actor : Option String
  action : String
  target : Option String
  ts : Time
  ip : Option String
  prevHash : String
  contentHash : String
  requestId : Option String
  machineId : Option Uuid
  deriving DecidableEq

/-- The tables.  Of an organisation only its existence matters. -/
structure Data where
  users : Table Uuid User
  tokens : Table Uuid RefreshToken
  audit : List AuditLog
  organizations : List Uuid

/-- The rows that are updated or deleted. -/
inductive RowKey where
  | user (id : Uuid)
  | token (id : Uuid)
  deriving DecidableEq

/-- What a statement writes. -/
inductive DataWrite where
  /-- `UPDATE users`, with the object as loaded and as it is. -/
  | user (id : Uuid) (base cur : User)
  /-- `DELETE FROM users`. -/
  | deleteUser (id : Uuid)
  /-- `INSERT INTO refresh_tokens`. -/
  | token (id : Uuid) (row : RefreshToken)
  /-- `UPDATE refresh_tokens SET revoked_at`. -/
  | revoke (id : Uuid) (now : Time)
  /-- `UPDATE refresh_tokens SET replaced_by`. -/
  | replace (id newId : Uuid)
  /-- `INSERT INTO audit_log`. -/
  | audit (row : AuditLog)

/-- The tables after a write. -/
def DataWrite.apply (d : Data) : DataWrite → Data
  | .user id base cur => { d with users := d.users.modify id (User.writeBack base cur) }
  | .deleteUser id => { d with users := d.users.erase id }
  | .token id row => { d with tokens := d.tokens.insert id row }
  | .revoke id now => { d with tokens := d.tokens.modify id fun r => { r with revokedAt := some now } }
  | .replace id newId =>
    { d with tokens := d.tokens.modify id fun r => { r with replacedBy := some newId } }
  | .audit row => { d with audit := d.audit ++ [row] }

instance : Applies DataWrite Data := ⟨fun w d => w.apply d⟩

/-- What the world outside answers. -/
structure Env where
  /-- The clock. -/
  now : Time
  /-- Which of several rows a query without an order returns first. -/
  first : ℕ
  /-- Rows of other tables refer to a user that is to be deleted. -/
  referenced : Bool

/-- A second factor that has been accepted: a time step, or the hash of a backup code. -/
inductive Factor where
  | totp (counter : ℤ)
  | backup (hash : String)
  deriving DecidableEq

/-- What a commit has done. -/
inductive Note where
  /-- The refresh token with this hash was exchanged. -/
  | exchanged (tokenHash : ℕ)
  /-- The family was revoked after a replay; these were its tokens when that began. -/
  | replayed (familyId : Uuid) (seen : List Uuid)
  /-- A user has logged in, with this second factor; the backup codes as they were read. -/
  | loggedIn (user : Uuid) (factor : Option Factor) (codes : Option (List String))
  /-- A user has confirmed the TOTP secret with this time step. -/
  | confirmed (user : Uuid) (counter : ℤ)
  /-- An administrator has changed or deleted a user. -/
  | administered (admin target : Uuid)
  deriving DecidableEq

/-- The programs of the routes. -/
abbrev Handler := Prog Data RowKey DataWrite Env Note

/-- `datetime.now(UTC)`. -/
def now : Handler Time := .answer Env.now

/-- `HTTPException(status, detail)`. -/
def httpError {α : Type} (statusCode : ℕ) (detail : String) : Handler (Except HttpError α) :=
  pure (.error ⟨statusCode, detail⟩)

/-- An exception that no handler catches. -/
def serverError {α : Type} : Handler (Except HttpError α) := httpError 500 "Internal Server Error"

/-! ## What a write leaves alone -/

section Apply

variable (d : Data) (w : DataWrite)

@[simp] theorem users_user (id : Uuid) (base cur : User) :
    (Applies.apply (DataWrite.user id base cur) d).users =
      d.users.modify id (User.writeBack base cur) := rfl

@[simp] theorem users_deleteUser (id : Uuid) :
    (Applies.apply (DataWrite.deleteUser id) d).users = d.users.erase id := rfl

@[simp] theorem tokens_user (id : Uuid) (base cur : User) :
    (Applies.apply (DataWrite.user id base cur) d).tokens = d.tokens := rfl

@[simp] theorem tokens_deleteUser (id : Uuid) :
    (Applies.apply (DataWrite.deleteUser id) d).tokens = d.tokens := rfl

@[simp] theorem tokens_audit (row : AuditLog) :
    (Applies.apply (DataWrite.audit row) d).tokens = d.tokens := rfl

end Apply

/-! ## An empty database, and a clock that stands still -/

/-- No users, no tokens, an empty log. -/
def emptyData : Data := ⟨.empty, .empty, [], []⟩

def emptyStore : Store Data RowKey Note := ⟨emptyData, fun _ => none, [], []⟩

/-- What is asked is answered five minutes after the epoch. -/
def exampleEnv : Env := ⟨300000000, 0, false⟩

/-- Some statements of a transaction. -/
def statements {Req : Type} (p : TxId) (n : ℕ) : List (Op Req Env) :=
  List.replicate n (.run p exampleEnv)

end AssetInventory.Server

import AssetInventory.Lib.Keeping
import AssetInventory.Lib.Noting
import AssetInventory.Server.Users

/-!
# The enrolment of a second factor

A user enrols a secret, confirms it, and can switch the second factor off again with the password.  An
administrator can switch it off too.  But the enrolment itself stores the new secret in the place of the old
one and takes the flag back, before anything is confirmed, and does not ask for the password.

* `totpSetup`, `disableMyTotp`, `updateMyProfile`, `reset2fa`: the routes; `accountRoute`: all routes of an
  account, with what they announce.
* `Protected`: the flag is set, and the secret is the enrolled one.
* `NotSwitchedOff`: nobody who commits has switched the second factor off with the password or for the
  user; `NotSetUp`: nor has the user begun a new enrolment.
* `protected_of_runs`: the user stays protected in every run of such commits.
* `protection_lost_by_setup`: a new enrolment, without the password.
-/

namespace AssetInventory.Server

open PyJson PyTime Orm RowStore ReadCommitted Interleaving

/-! ## The routes -/

/-- Random texts, each made from a number that has been drawn, and `pyotp.TOTP.provisioning_uri`. -/
structure TotpLibrary where
  /-- `pyotp.random_base32()`. -/
  randomBase32 : ℕ → String
  /-- `os.urandom(5).hex().upper()`. -/
  randomCode : ℕ → String
  /-- The address of a secret, for the name and the issuer. -/
  provisioningUri : String → String → String → String

structure TotpSetupResponse where
  secret : String
  uri : String
  backupCodes : List String
  deriving DecidableEq

/-- What `update_my_profile` returns of the user. -/
structure ProfileOut where
  id : Uuid
  email : String
  fullName : String
  role : UserRole
  orgId : Uuid
  is2faEnabled : Bool
  mustChangePassword : Bool
  lastLoginAt : Option Time
  deriving DecidableEq

/-- The columns without a second factor. -/
def User.withoutTotp (user : User) : User :=
  { user with
    is2faEnabled := false
    totpSecretEncrypted := none
    backupCodes := none
    totpLastCounter := none }

section Routes

variable (c : Crypto) (lib : TotpLibrary)

def generateBackupCodes : ℕ → Handler (List String)
  | 0 => pure []
  | n + 1 => do
    let random ← .fresh
    let codes ← generateBackupCodes n
    return lib.randomCode random :: codes

/-- `[hash_password(c) for c in codes]`, each with a salt of its own. -/
def hashCodes : List String → Handler (List String)
  | [] => pure []
  | code :: codes => do
    let salt ← .fresh
    let hashes ← hashCodes codes
    return c.hashPassword salt code :: hashes

/-- The body of `totp_setup`: the new secret and codes are stored at once. -/
@[irreducible] def enrol (id : Uuid) (user : User) : Handler (Except HttpError TotpSetupResponse) := do
  let random ← .fresh
  let secret := lib.randomBase32 random
  let uri := lib.provisioningUri secret user.email "ITAssetInventory"
  let codes ← generateBackupCodes lib 10
  let nonce ← .fresh
  let hashes ← hashCodes c codes
  let cur :=
    { user with
      totpSecretEncrypted := some (c.encryptAesGcm nonce secret)
      backupCodes := some hashes
      is2faEnabled := false }
  let found ← flushUser id user cur
  if found then
    .publish []
    return .ok ⟨secret, uri, codes⟩
  else serverError

def totpSetup (credentials : Credentials) : Handler (Except HttpError TotpSetupResponse) := do
  let user ← getCurrentUser credentials
  match user with
  | .error e => return .error e
  | .ok (id, user) => enrol c lib id user

/-- The end of `disable_my_totp` and of `reset_2fa`: the columns are cleared, which is audited. -/
def clearTotp (action : String) (actor target : Uuid) (user : User) (ip : Option String) :
    Handler (Except HttpError Unit) := do
  let found ← flushUser target user user.withoutTotp
  if found then
    let _ ← appendAudit c.sha256 action (some (toString actor)) (some (toString target)) ip
    .publish []
    return .ok ()
  else serverError

def disableMyTotp (credentials : Credentials) (currentPassword : String) :
    Handler (Except HttpError Unit) := do
  let user ← getCurrentUser credentials
  match user with
  | .error e => return .error e
  | .ok (id, user) =>
    match user.passwordHash with
    | none => serverError
    | some hash =>
      if c.verifyPassword currentPassword hash = false then
        httpError 401 "Mật khẩu hiện tại không đúng"
      else clearTotp c "auth.totp_disabled" id id user none

def updateMyProfile (credentials : Credentials) (fullName : String) :
    Handler (Except HttpError ProfileOut) := do
  let user ← getCurrentUser credentials
  match user with
  | .error e => return .error e
  | .ok (id, user) =>
    if strip fullName = "" then httpError 400 "Họ và tên không được để trống"
    else
      let cur := { user with fullName := strip fullName }
      let found ← flushUser id user cur
      if found then
        let _ ← appendAudit c.sha256 "auth.update_profile" (some (toString id)) (some (toString id))
          none
        .publish []
        return .ok ⟨id, cur.email, cur.fullName, cur.role, cur.orgId, cur.is2faEnabled,
          cur.mustChangePassword, cur.lastLoginAt⟩
      else serverError

/-- `reset_2fa`.  The session has one object for a user, which is the administrator's if the two are the
same. -/
def reset2fa (userId : Uuid) (credentials : Credentials) (ip : Option String) :
    Handler (Except HttpError Unit) := do
  let admin ← requireRole superRoles "Không có quyền" credentials
  match admin with
  | .error e => return .error e
  | .ok (adminId, admin) =>
    let found ← .select fun data => data.users.get userId
    match found with
    | none => httpError 404 "Người dùng không tồn tại"
    | some row =>
      clearTotp c "user.reset_2fa" adminId userId (if userId = adminId then admin else row) ip

end Routes

/-- What a commit announces of an account. -/
inductive AccountNote where
  /-- What the route announces. -/
  | of (n : Note)
  /-- The user has begun an enrolment. -/
  | setUp (user : Uuid)
  /-- The user has switched the second factor off, with this password. -/
  | disabled (user : Uuid) (password : String)
  /-- An administrator has switched it off. -/
  | reset (user : Uuid)
  deriving DecidableEq

/-- The requests of the routes of an account. -/
inductive AccountRequest where
  | auth (request : AuthRequest)
  | totpSetup (credentials : Credentials)
  | disableMyTotp (credentials : Credentials) (currentPassword : String)
  | updateMyProfile (credentials : Credentials) (fullName : String)
  | reset2fa (userId : Uuid) (credentials : Credentials) (ip : Option String)

/-- What the commits of a request announce. -/
def AccountRequest.notes : AccountRequest → List Note → List AccountNote
  | .totpSetup (.user id), _ => [.setUp id]
  | .disableMyTotp (.user id) password, _ => [.disabled id password]
  | .reset2fa userId _ _, _ => [.reset userId]
  | _, note => note.map .of

/-- The program of a request. -/
def accountHandler (c : Crypto) (lib : TotpLibrary) (settings : AuthSettings) :
    AccountRequest → Handler Unit
  | .auth request => authRoute c settings request
  | .totpSetup credentials => do let _ ← totpSetup c lib credentials
  | .disableMyTotp credentials password => do let _ ← disableMyTotp c credentials password
  | .updateMyProfile credentials fullName => do let _ ← updateMyProfile c credentials fullName
  | .reset2fa userId credentials ip => do let _ ← reset2fa c userId credentials ip

/-- The program of a request, with what it announces. -/
def accountRoute (c : Crypto) (lib : TotpLibrary) (settings : AuthSettings) (request : AccountRequest) :
    Prog Data RowKey DataWrite Env AccountNote Unit :=
  (accountHandler c lib settings request).noting request.notes

/-- The engine that runs the routes. -/
abbrev accountStep (c : Crypto) (lib : TotpLibrary) (settings : AuthSettings) :
    Engine Data RowKey DataWrite Env AccountNote → Op AccountRequest Env →
      Option (Engine Data RowKey DataWrite Env AccountNote) :=
  Engine.step (accountRoute c lib settings)

/-! ## Protection -/

/-- **The user is protected** by a second factor: the flag is set, and the secret is the enrolled one. -/
def Protected (user : Uuid) (secret : Option String) (data : Data) : Prop :=
  ∃ row, data.users.get user = some row ∧ row.is2faEnabled = true ∧ row.totpSecretEncrypted = secret

/-- The session has read the user with this password. -/
def DataWrite.hasPassword (c : Crypto) (user : Uuid) (password : String) : DataWrite → Bool
  | .user id base _ => decide (id = user) && base.passwordHash.any (c.verifyPassword password)
  | _ => false

/-- Nobody switches the second factor of the user off by this: no administrator, and none who presents the
password of the user as the session has read it. -/
def AccountNote.LeavesOn (c : Crypto) (user : Uuid) (pending : List DataWrite) : AccountNote → Prop
  | .disabled id password => id = user → pending.any (DataWrite.hasPassword c user password) = false
  | .reset id => id ≠ user
  | _ => True

/-- Nobody who commits has switched the second factor of the user off with the password or for the user. -/
def NotSwitchedOff (c : Crypto) (user : Uuid) (pending : List DataWrite) (note : List AccountNote) :
    Prop :=
  ∀ n ∈ note, n.LeavesOn c user pending

/-- **The condition on a commit**: it does not begin an enrolment of the user. -/
def NotSetUp (user : Uuid) (note : List AccountNote) : Prop := .setUp user ∉ note

instance (c : Crypto) (user : Uuid) (pending : List DataWrite) :
    DecidablePred (AccountNote.LeavesOn c user pending)
  | .of _ => isTrue trivial
  | .setUp _ => isTrue trivial
  | .disabled id password => by unfold AccountNote.LeavesOn; infer_instance
  | .reset id => by unfold AccountNote.LeavesOn; infer_instance

instance (c : Crypto) (user : Uuid) (pending : List DataWrite) (note : List AccountNote) :
    Decidable (NotSwitchedOff c user pending note) := by
  unfold NotSwitchedOff
  infer_instance

instance (user : Uuid) (note : List AccountNote) : Decidable (NotSetUp user note) := by
  unfold NotSetUp
  infer_instance

/-- The commits of an account that stays protected. -/
def StaysOn (c : Crypto) (user : Uuid) (_ : Store Data RowKey AccountNote) (pending : List DataWrite)
    (note : List AccountNote) : Prop :=
  NotSwitchedOff c user pending note ∧ NotSetUp user note

instance (c : Crypto) (user : Uuid) (s : Store Data RowKey AccountNote) (pending : List DataWrite)
    (note : List AccountNote) : Decidable (StaysOn c user s pending note) := by
  unfold StaysOn
  infer_instance

/-! ## What a write keeps -/

/-- The write leaves the flag and the secret of the user as its session has read them. -/
def KeepsEnrolment (user : Uuid) : DataWrite → Prop
  | .user id base cur => id = user →
      cur.is2faEnabled = base.is2faEnabled ∧ cur.totpSecretEncrypted = base.totpSecretEncrypted
  | .deleteUser id => id ≠ user
  | _ => True

/-- **Such a write keeps a user protected.** -/
theorem KeepsEnrolment.preserves {user : Uuid} {secret : Option String} {w : DataWrite}
    (hw : KeepsEnrolment user w) : Preserves (Protected user secret) w := by
  rintro d ⟨row, hrow, hflag, hsecret⟩
  cases w with
  | user id base cur =>
    by_cases hid : id = user
    · obtain ⟨hcurFlag, hcurSecret⟩ := hw hid
      subst hid
      refine ⟨User.writeBack base cur row, ?_, ?_, ?_⟩
      · rw [users_user, Table.get_modify_self, hrow]
        rfl
      · show pick base.is2faEnabled cur.is2faEnabled row.is2faEnabled = true
        rw [hcurFlag, pick_same, hflag]
      · show pick base.totpSecretEncrypted cur.totpSecretEncrypted row.totpSecretEncrypted = secret
        rw [hcurSecret, pick_same, hsecret]
    · refine ⟨row, ?_, hflag, hsecret⟩
      rw [users_user, Table.get_modify_of_ne _ _ (Ne.symm hid)]
      exact hrow
  | deleteUser id =>
    refine ⟨row, ?_, hflag, hsecret⟩
    rw [users_deleteUser, Table.get_erase_of_ne _ (Ne.symm hw)]
    exact hrow
  | token id r => exact ⟨row, hrow, hflag, hsecret⟩
  | revoke id t => exact ⟨row, hrow, hflag, hsecret⟩
  | replace id id' => exact ⟨row, hrow, hflag, hsecret⟩
  | audit r => exact ⟨row, hrow, hflag, hsecret⟩

namespace Enrolment

/-- The transactions keep the user protected. -/
def accountDiscipline (c : Crypto) (user : Uuid) (secret : Option String) :
    Discipline Data RowKey DataWrite AccountNote :=
  keeping (Protected user secret) (StaysOn c user)

variable {c : Crypto} {lib : TotpLibrary} {user : Uuid} {secret : Option String} {p : TxId}
  {ws : List DataWrite} {s : Store Data RowKey AccountNote} {α β : Type}
  {f : List Note → List AccountNote} {B : List Note → Prop} {C : α → Prop} {m : Handler α}

theorem safe_of_keeps (hm : m.Only (fun w => Preserves (Protected user secret) w) B C) :
    (m.noting f).Safe (accountDiscipline c user secret) p anyEnd [] s :=
  ((hm.noting f).keeping (List.forall_mem_nil _)).mono fun _ _ _ _ => trivial

variable {A : DataWrite → Prop}

theorem safe_of_refused {n : AccountNote} (hm : m.Only A (fun _ => True) C)
    (hn : ∀ s ws, ¬ StaysOn c user s ws [n]) :
    (m.noting fun _ => [n]).Safe (accountDiscipline c user secret) p anyEnd ws s := by
  refine ((hm.noting fun _ => [n]).mono (fun _ h => h) ?_ fun _ h => h).refused
  rintro _ ⟨-, -, rfl⟩
  exact hn

/-! ### The user of a request -/

/-- What the dependencies return: the user that the credentials name, with the flag set if it is the
protected one. -/
def Loaded (user : Uuid) (credentials : Credentials) (r : Except HttpError (Uuid × User)) : Prop :=
  ∀ x, r = .ok x → credentials = .user x.1 ∧ (x.1 = user → x.2.is2faEnabled = true)

theorem loaded_error (credentials : Credentials) (e : HttpError) :
    Loaded user credentials (.error e) := by
  intro x hx
  cases hx

theorem safe_resolveUserFromToken (credentials : Credentials) :
    ((resolveUserFromToken credentials).noting f).Safe (accountDiscipline c user secret) p
      (fun r ws _ => ws = [] ∧ Loaded user credentials r) [] s := by
  cases credentials with
  | missing => exact noting_pure ⟨rfl, loaded_error _ _⟩
  | invalid => exact noting_pure ⟨rfl, loaded_error _ _⟩
  | user id =>
    refine noting_select _ fun t _ hinv => ?_
    cases hrow : (t.view ([] : List DataWrite)).users.get id with
    | none => exact noting_pure ⟨rfl, loaded_error _ _⟩
    | some row =>
      dsimp only
      split
      · refine noting_pure ⟨rfl, fun x hx => ?_⟩
        cases hx
        refine ⟨rfl, fun hid => ?_⟩
        obtain ⟨row', hrow', hflag, -⟩ := hinv
        subst hid
        obtain rfl := Option.some.inj (hrow'.symm.trans hrow)
        exact hflag
      · exact noting_pure ⟨rfl, loaded_error _ _⟩

variable {k : Except HttpError (Uuid × User) → Handler α}

theorem noting_getCurrentUser {credentials : Credentials}
    {Q : α → List DataWrite → Store Data RowKey AccountNote → Prop}
    (hk : ∀ r t, Loaded user credentials r →
      ((k r).noting f).Safe (accountDiscipline c user secret) p Q [] t) :
    ((getCurrentUser credentials >>= k).noting f).Safe (accountDiscipline c user secret) p Q
    [] s := by
  have hread : ((getCurrentUser credentials).noting f).Safe (accountDiscipline c user secret) p
      (fun r ws _ => ws = [] ∧ Loaded user credentials r) [] s := by
    refine noting_part (safe_resolveUserFromToken credentials) fun r ws t h => ?_
    cases r with
    | error e => exact noting_pure ⟨h.1, loaded_error _ _⟩
    | ok x =>
      dsimp only
      split
      · exact noting_pure ⟨h.1, loaded_error _ _⟩
      · exact noting_pure h
  exact noting_part hread fun r ws t h => h.1 ▸ hk r t h.2

/-! ### The routes that leave the enrolment alone -/

theorem keeps_of_same {id : Uuid} {base cur : User} (hflag : cur.is2faEnabled = base.is2faEnabled)
    (hsecret : cur.totpSecretEncrypted = base.totpSecretEncrypted) :
    Preserves (Protected user secret) (DataWrite.user id base cur) :=
  KeepsEnrolment.preserves (w := .user id base cur) fun _ => ⟨hflag, hsecret⟩

theorem keeps_of_ne {id : Uuid} (hid : id ≠ user) (base cur : User) :
    Preserves (Protected user secret) (DataWrite.user id base cur) :=
  KeepsEnrolment.preserves (w := .user id base cur) fun h => absurd h hid

theorem keeps_audit (row : AuditLog) : Preserves (Protected user secret) (DataWrite.audit row) :=
  KeepsEnrolment.preserves (w := .audit row) trivial

theorem keeps_token (id : Uuid) (row : RefreshToken) :
    Preserves (Protected user secret) (DataWrite.token id row) :=
  KeepsEnrolment.preserves (w := .token id row) trivial

theorem keeps_revoke (id : Uuid) (t : Time) :
    Preserves (Protected user secret) (DataWrite.revoke id t) :=
  KeepsEnrolment.preserves (w := .revoke id t) trivial

theorem keeps_replace (id newId : Uuid) :
    Preserves (Protected user secret) (DataWrite.replace id newId) :=
  KeepsEnrolment.preserves (w := .replace id newId) trivial

theorem keeps_login (id : Uuid) (row : User) (factor : Option Factor) (t : Time) :
    Preserves (Protected user secret)
      (DataWrite.user id row { factor.elim row row.use with lastLoginAt := some t }) := by
  cases factor with
  | none => exact keeps_of_same rfl rfl
  | some factor => cases factor <;> exact keeps_of_same rfl rfl

theorem only_updateMyProfile (credentials : Credentials) (fullName : String) :
    (updateMyProfile c credentials fullName).Only
      (fun w => Preserves (Protected user secret) w) (fun _ => True) fun _ => True := by
  refine (only_getCurrentUser credentials).bind fun r _ => ?_
  cases r with
  | error e => exact only_pure trivial
  | ok x =>
    dsimp only
    split_ifs
    · exact only_pure trivial
    · have hkeeps : Preserves (Protected user secret)
          (DataWrite.user x.1 x.2 { x.2 with fullName := strip fullName }) := keeps_of_same rfl rfl
      refine (only_flushUser hkeeps).bind fun found _ => ?_
      cases found with
      | false => exact only_pure trivial
      | true =>
        exact (only_appendAudit keeps_audit _ _ _ _ _).bind fun _ _ =>
          only_publish trivial (only_pure trivial)

/-- The secret that is confirmed is the one that is stored, and the flag is set already. -/
theorem safe_totpConfirm (settings : AuthSettings) (credentials : Credentials) (code : String) :
    ((totpConfirm c settings credentials code).noting f).Safe (accountDiscipline c user secret) p
      anyEnd [] s := by
  refine noting_getCurrentUser fun r t hr => ?_
  cases r with
  | error e => exact noting_pure trivial
  | ok x =>
    refine safe_of_keeps (B := fun _ => True) (C := fun _ => True) ?_
    dsimp only
    split_ifs
    · split
      · exact only_pure trivial
      · refine only_answer _ fun now => ?_
        split
        · exact only_pure trivial
        · exact only_pure trivial
        · rename_i counter _
          have hkeeps : Preserves (Protected user secret) (DataWrite.user x.1 x.2
              { x.2 with is2faEnabled := true, totpLastCounter := some counter }) :=
            KeepsEnrolment.preserves (w := .user x.1 x.2 _) fun hid => ⟨((hr x rfl).2 hid).symm, rfl⟩
          refine (only_flushUser hkeeps).bind fun found _ => ?_
          cases found with
          | false => exact only_pure trivial
          | true =>
            exact (only_appendAudit keeps_audit _ _ _ _ _).bind fun _ _ =>
              (only_issueTokens _ _ _ _).bind fun _ _ =>
                (only_insertToken fun _ => keeps_token _ _).bind fun _ _ =>
                  only_publish trivial (only_pure trivial)
    · exact only_pure trivial

theorem safe_auth (settings : AuthSettings) (request : AuthRequest) :
    ((authRoute c settings request).noting f).Safe (accountDiscipline c user secret) p anyEnd
    [] s := by
  cases request with
  | login body =>
    refine noting_part (safe_of_keeps (B := fun _ => True) (C := fun _ => True) ?_) fun _ _ _ _ => noting_pure trivial
    exact only_login keeps_audit keeps_token keeps_login trivial (fun _ _ _ => trivial) c settings body
  | refresh token =>
    refine noting_part (safe_of_keeps (B := fun _ => True) (C := fun _ => True) ?_) fun _ _ _ _ => noting_pure trivial
    exact only_refresh keeps_audit keeps_revoke keeps_replace keeps_token (fun _ => trivial)
      (fun _ _ => trivial) c settings token
  | totpConfirm credentials code =>
    exact noting_part (safe_totpConfirm settings credentials code) fun _ _ _ _ => noting_pure trivial
  | logout credentials tokenHash =>
    refine noting_part (safe_of_keeps (B := fun _ => True) (C := fun _ => True) ?_) fun _ _ _ _ => noting_pure trivial
    exact only_logout keeps_audit keeps_revoke trivial c credentials tokenHash
  | changePassword credentials current new =>
    refine noting_part (safe_of_keeps (B := fun _ => True) (C := fun _ => True) ?_) fun _ _ _ _ => noting_pure trivial
    exact only_changePassword keeps_audit keeps_revoke (fun _ _ _ => keeps_of_same rfl rfl) trivial c
      credentials current new

/-! ### The routes that write the enrolment -/

theorem only_generateBackupCodes (lib : TotpLibrary) (n : ℕ) :
    (generateBackupCodes lib n).Only A B fun _ => True := by
  induction n with
  | zero => exact only_pure trivial
  | succ n ih => exact only_fresh fun _ => ih.bind fun _ _ => only_pure trivial

theorem only_hashCodes (c : Crypto) (codes : List String) :
    (hashCodes c codes).Only A B fun _ => True := by
  induction codes with
  | nil => exact only_pure trivial
  | cons code codes ih => exact only_fresh fun _ => ih.bind fun _ _ => only_pure trivial

theorem only_enrol {id : Uuid} {row : User} (hA : ∀ cur, A (.user id row cur)) :
    (enrol c lib id row).Only A (fun _ => True) fun _ => True := by
  unfold enrol
  refine only_fresh fun random => ?_
  refine Prog.Only.bind (only_generateBackupCodes lib 10) fun codes _ => ?_
  refine only_fresh fun nonce => ?_
  refine Prog.Only.bind (only_hashCodes c codes) fun hashes _ => ?_
  refine Prog.Only.bind (only_flushUser (hA _)) fun found _ => ?_
  cases found with
  | false => exact only_pure trivial
  | true => exact only_publish trivial (only_pure trivial)

/-- **An enrolment** is one of another user, or is not allowed. -/
theorem safe_totpSetup (id : Uuid) :
    ((totpSetup c lib (.user id)).noting fun _ => [.setUp id]).Safe
    (accountDiscipline c user secret) p
      anyEnd [] s := by
  refine noting_getCurrentUser fun r t hr => ?_
  cases r with
  | error e => exact noting_pure trivial
  | ok x =>
    have hid : id = x.1 := Credentials.user.inj (hr x rfl).1
    dsimp only
    by_cases huser : id = user
    · have honly : (enrol c lib x.1 x.2).Only (fun _ => True) (fun _ => True) fun _ => True :=
        only_enrol fun _ => trivial
      refine safe_of_refused honly fun _ _ h => h.2 ?_
      rw [huser]
      exact List.mem_cons_self
    · exact safe_of_keeps (only_enrol fun cur => keeps_of_ne (hid ▸ huser) _ _)

theorem only_clearTotp (haudit : ∀ row, A (.audit row)) {target : Uuid}
    {row : User} (huser : A (.user target row row.withoutTotp)) (action : String) (actor : Uuid)
    (ip : Option String) :
    (clearTotp c action actor target row ip).Only A (fun _ => True) fun _ => True := by
  refine (only_flushUser huser).bind fun found _ => ?_
  cases found with
  | false => exact only_pure trivial
  | true =>
    exact (only_appendAudit haudit _ _ _ _ _).bind fun _ _ => only_publish trivial (only_pure trivial)

theorem safe_clearTotp {row : User} {password hash : String} (hflag : row.is2faEnabled = true)
    (hhash : row.passwordHash = some hash) (hverify : c.verifyPassword password hash = true) :
    ((clearTotp c "auth.totp_disabled" user user row none).noting fun _ => [.disabled user password]).Safe
      (accountDiscipline c user secret) p anyEnd [] s := by
  have hchange : row.withoutTotp ≠ row := by
    intro heq
    have hoff : row.withoutTotp.is2faEnabled = true := by
      rw [heq]
      exact hflag
    cases hoff
  unfold clearTotp flushUser
  rw [if_neg hchange]
  refine noting_update _ _ fun t _ _ => ?_
  dsimp only
  split
  · have hwritten : Stable (accountDiscipline c user secret) p
        fun ws _ => .user user row row.withoutTotp ∈ ws := stable_of_pending _ p _
    refine hwritten.noting_bind (A := fun _ => True) (fun _ _ _ _ h => List.mem_append_left _ h)
      (only_appendAudit (fun _ => trivial) _ _ _ _ _) List.mem_cons_self fun _ ws t _ hmem => ?_
    refine noting_publish _ fun u _ _ hallowed => ?_
    have hnone := hallowed.1 _ List.mem_cons_self rfl
    have hsome : ws.any (DataWrite.hasPassword c user password) = true := by
      refine List.any_eq_true.mpr ⟨_, hmem, ?_⟩
      rw [DataWrite.hasPassword, hhash, Option.any_some, hverify]
      simp
    rw [hsome] at hnone
    cases hnone
  · exact noting_pure trivial

/-- **Who switches the second factor off** is another user, or presents the password of the user. -/
theorem safe_disableMyTotp (id : Uuid) (password : String) :
    ((disableMyTotp c (.user id) password).noting fun _ => [.disabled id password]).Safe
      (accountDiscipline c user secret) p anyEnd [] s := by
  refine noting_getCurrentUser fun r t hr => ?_
  cases r with
  | error e => exact noting_pure trivial
  | ok x =>
    have hid : id = x.1 := Credentials.user.inj (hr x rfl).1
    dsimp only
    split
    · exact noting_pure trivial
    · rename_i hash hhash
      split_ifs with hverify
      · exact noting_pure trivial
      · by_cases huser : id = user
        · subst huser
          rw [← hid]
          exact safe_clearTotp ((hr x rfl).2 hid.symm) hhash (Bool.not_eq_false _ ▸ hverify)
        · exact safe_of_keeps (only_clearTotp keeps_audit (keeps_of_ne (hid ▸ huser) _ _) _ _ _)

theorem only_reset2fa (haudit : ∀ row, A (.audit row)) {userId : Uuid}
    (huser : ∀ base cur, A (.user userId base cur)) (credentials : Credentials) (ip : Option String) :
    (reset2fa c userId credentials ip).Only A (fun _ => True) fun _ => True := by
  refine (only_requireRole _ _ _).bind fun r _ => ?_
  cases r with
  | error e => exact only_pure trivial
  | ok x =>
    refine only_select _ fun found => ?_
    cases found with
    | none => exact only_pure trivial
    | some row => exact only_clearTotp haudit (huser _ _) _ _ _

theorem noting_anonymous {credentials : Credentials} (hnone : ∀ id, credentials ≠ .user id)
    (hk : ∀ e t, ((k (.error e)).noting f).Safe (accountDiscipline c user secret) p anyEnd [] t) :
    ((getCurrentUser credentials >>= k).noting f).Safe (accountDiscipline c user secret) p anyEnd
      [] s := by
  refine noting_getCurrentUser fun r t hr => ?_
  cases r with
  | error e => exact hk e t
  | ok x => exact absurd (hr x rfl).1 (hnone x.1)

/-- **Every route** keeps the user protected. -/
theorem safe_accountRoute (settings : AuthSettings) (request : AccountRequest) :
    (accountRoute c lib settings request).Safe (accountDiscipline c user secret) p anyEnd [] s := by
  have hend : ∀ {β : Type} {m : Handler β} {f : List Note → List AccountNote},
      (m.noting f).Safe (accountDiscipline c user secret) p anyEnd [] s →
        ((do let _ ← m : Handler Unit).noting f).Safe (accountDiscipline c user secret) p anyEnd [] s :=
    fun h => noting_part h fun _ _ _ _ => noting_pure trivial
  cases request with
  | auth request => exact safe_auth settings request
  | totpSetup credentials =>
    refine hend ?_
    cases credentials with
    | user id => exact safe_totpSetup id
    | missing => exact noting_anonymous (fun _ h => by cases h) fun _ _ => noting_pure trivial
    | invalid => exact noting_anonymous (fun _ h => by cases h) fun _ _ => noting_pure trivial
  | disableMyTotp credentials password =>
    refine hend ?_
    cases credentials with
    | user id => exact safe_disableMyTotp id password
    | missing => exact noting_anonymous (fun _ h => by cases h) fun _ _ => noting_pure trivial
    | invalid => exact noting_anonymous (fun _ h => by cases h) fun _ _ => noting_pure trivial
  | updateMyProfile credentials fullName =>
    exact hend (safe_of_keeps (only_updateMyProfile credentials fullName))
  | reset2fa userId credentials ip =>
    refine hend ?_
    by_cases hid : userId = user
    · have honly : (reset2fa c userId credentials ip).Only (fun _ => True) (fun _ => True)
          fun _ => True := only_reset2fa (fun _ => trivial) (fun _ _ => trivial) credentials ip
      exact safe_of_refused honly fun _ _ h => h.1 _ List.mem_cons_self hid
    · exact safe_of_keeps (only_reset2fa keeps_audit (fun _ _ => keeps_of_ne hid _ _) credentials ip)

end Enrolment

/-! ## Runs -/

/-- **The user stays protected** in every run in which nobody switches the second factor off, if the user
does not begin another enrolment. -/
theorem protected_of_runs (c : Crypto) (lib : TotpLibrary) (settings : AuthSettings) {user : Uuid}
    {secret : Option String} {s : Store Data RowKey AccountNote} (hs : Protected user secret s.data)
    {g : Engine Data RowKey DataWrite Env AccountNote}
    (hrun : Runs (accountStep c lib settings) (CommitsOnly (StaysOn c user)) (Engine.start s) g) :
    Protected user secret g.store.data :=
  kept_of_runs (fun _ request _ _ => Enrolment.safe_accountRoute settings request) hs hrun

/-- One user, with a second factor. -/
def oneAccount : Store Data RowKey AccountNote := ⟨oneUser.data, fun _ => none, [], []⟩

theorem protected_oneAccount : Protected 0 (some "secret") oneAccount.data :=
  ⟨exampleUser, by decide +kernel⟩

/-- Random texts that are the numbers. -/
def exampleTotpLibrary : TotpLibrary := ⟨toString, toString, fun secret _ _ => secret⟩

/-- **The protection is lost by an enrolment**, for which nobody has presented the password. -/
theorem protection_lost_by_setup :
    ¬ ∀ (c : Crypto) (lib : TotpLibrary) (settings : AuthSettings) (user : Uuid)
      (secret : Option String) (s : Store Data RowKey AccountNote), Protected user secret s.data →
        ∀ g, Runs (accountStep c lib settings)
          (CommitsOnly fun _ pending note => NotSwitchedOff c user pending note) (Engine.start s) g →
            Protected user secret g.store.data := by
  intro h
  obtain ⟨g, hrun, hg⟩ := exists_runs_of_exec
    (G := CommitsOnly fun _ pending note => NotSwitchedOff exampleCrypto 0 pending note)
    (accountStep exampleCrypto exampleTotpLibrary exampleSettings) (Engine.start oneAccount)
    ([.begin 0 (.totpSetup (.user 0))] ++ statements 0 25)
    (p := fun g => (g.store.data.users.get 0).all fun row => !row.is2faEnabled) (by decide +kernel)
  obtain ⟨row, hrow, hflag, -⟩ := h exampleCrypto exampleTotpLibrary exampleSettings 0 (some "secret")
    oneAccount protected_oneAccount g hrun
  rw [hrow, Option.all_some, hflag] at hg
  cases hg

theorem protected_of_profile : ∃ g, Runs
    (accountStep exampleCrypto exampleTotpLibrary exampleSettings)
      (CommitsOnly (StaysOn exampleCrypto 0)) (Engine.start oneAccount) g ∧
    ((g.store.data.users.get 0).any fun row => row.fullName == "An") = true ∧
    Protected 0 (some "secret") g.store.data := by
  obtain ⟨g, hrun, hg⟩ := exists_runs_of_exec (G := CommitsOnly (StaysOn exampleCrypto 0))
    (accountStep exampleCrypto exampleTotpLibrary exampleSettings) (Engine.start oneAccount)
    ([.begin 0 (.updateMyProfile (.user 0) " An "), .begin 1 (.disableMyTotp (.user 0) "guess")] ++
      statements 0 7 ++ statements 1 2)
    (p := fun g => (g.store.data.users.get 0).any fun row => row.fullName == "An") (by decide +kernel)
  exact ⟨g, hrun, hg, protected_of_runs exampleCrypto exampleTotpLibrary exampleSettings
    protected_oneAccount hrun⟩

end AssetInventory.Server

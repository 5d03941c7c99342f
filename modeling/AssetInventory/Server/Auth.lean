import AssetInventory.Server.Audit

/-!
# The routes for authentication

Login, the exchange of refresh tokens, the confirmation of a TOTP secret, logout and the change of the
password, each a program over the tables.  An object that a route has changed is written when its session
next flushes, that is before the next query or the commit.

* `Crypto`: bcrypt, TOTP, AES and SHA-256, which are not part of the repository.
* `verifyTotpCounter`, `acceptFactor`: which time step or backup code a login accepts.
* `login`, `refresh`, `totpConfirm`, `logout`, `changePassword`: the routes.

A token is given by what it says: `PresentedToken` is what the server finds in a token that a client
presents.
-/

namespace AssetInventory.Server

open PyJson PyTime RowStore ReadCommitted

/-- The cryptographic functions. -/
structure Crypto where
  /-- The hexadecimal SHA-256 digest of a text. -/
  sha256 : String → String
  /-- `bcrypt.checkpw(plain, hashed)`; a hash that cannot be read matches nothing. -/
  verifyPassword : String → String → Bool
  /-- `bcrypt.hashpw(plain, salt)`. -/
  hashPassword : ℕ → String → String
  /-- `pyotp.TOTP(secret).at(seconds)`. -/
  totpAt : String → ℤ → String
  /-- `encrypt_aes_gcm`, with this nonce. -/
  encryptAesGcm : ℕ → String → String
  decryptAesGcm : String → Except PyExc String

/-- The settings of the routes. -/
structure AuthSettings where
  accessTokenExpireMinutes : ℤ
  refreshTokenExpireDays : ℤ

/-! ## Second factors -/

/-- `totp.interval`. -/
def totpInterval : ℤ := 30

/-- `verify_totp_counter`, at a time in seconds. -/
def verifyTotpCounter (c : Crypto) (secret code : String) (now : ℤ) : Except PyExc (Option ℤ) :=
  let code := strip code
  if code.toList.all fun x => decide (x.toNat < 128) then
    .ok (([-1, 0, 1].find? fun offset =>
      decide (c.totpAt secret (now + offset * totpInterval) = code)).map fun offset =>
        (now + offset * totpInterval) / totpInterval)
  else
    .error ⟨"TypeError", "comparing strings with non-ASCII characters is not supported"⟩

/-- `user.totp_last_counter or -1`. -/
def lastCounter (user : User) : ℤ :=
  match user.totpLastCounter with
  | none => -1
  | some counter => if counter = 0 then -1 else counter

/-- The backup code that a login falls back to. -/
def backupFactor (c : Crypto) (user : User) (code : String) : Option Factor :=
  ((user.backupCodes.getD []).find? fun hash => c.verifyPassword code hash).map Factor.backup

/-- The second factor that a login accepts: a time step after the last one, else a backup code. -/
def acceptFactor (c : Crypto) (user : User) (code : String) (now : ℤ) :
    Except PyExc (Option Factor) :=
  match user.totpSecretEncrypted with
  | none => .ok (backupFactor c user code)
  | some encrypted =>
    if encrypted = "" then .ok (backupFactor c user code)
    else
      match c.decryptAesGcm encrypted with
      | .error e => .error e
      | .ok secret =>
        match verifyTotpCounter c secret code now with
        | .error e => .error e
        | .ok none => .ok (backupFactor c user code)
        | .ok (some counter) =>
          if lastCounter user < counter then .ok (some (.totp counter))
          else .ok (backupFactor c user code)

/-- The user after a second factor has been used. -/
def User.use (user : User) : Factor → User
  | .totp counter => { user with totpLastCounter := some counter }
  | .backup hash => { user with backupCodes := some ((user.backupCodes.getD []).erase hash) }

/-! ## Tokens -/

/-- What an access token says. -/
structure AccessClaims where
  sub : Uuid
  role : UserRole
  orgId : Uuid
  exp : Time
  deriving DecidableEq

/-- What a refresh token says. -/
structure RefreshClaims where
  sub : Uuid
  exp : Time
  jti : ℕ
  deriving DecidableEq

/-- `LoginResponse`; an empty token is `none`. -/
structure LoginResponse where
  accessToken : Option AccessClaims
  refreshToken : Option RefreshClaims
  requires2fa : Bool
  mustChangePassword : Bool
  deriving DecidableEq

/-- A refresh token that a client presents: its hash, and the user it names if it can be decoded. -/
structure PresentedToken where
  tokenHash : ℕ
  sub : Option Uuid
  deriving DecidableEq

/-- `timedelta(days=n)`. -/
def days (n : ℤ) : ℤ := seconds (n * 86400)

section Routes

variable (c : Crypto) (settings : AuthSettings)

/-- `_issue_tokens`: the answer, and the row that the session will insert. -/
def issueTokens (userId : Uuid) (user : User) (familyId : Option Uuid) :
    Handler (LoginResponse × RefreshToken) := do
  let t ← now
  let t' ← now
  let jti ← .fresh
  let family ← match familyId with
    | some family => pure family
    | none => .fresh
  let t'' ← now
  return (
    { accessToken := some ⟨userId, user.role, user.orgId, t + minutes settings.accessTokenExpireMinutes⟩
      refreshToken := some ⟨userId, t' + days settings.refreshTokenExpireDays, jti⟩
      requires2fa := false
      mustChangePassword := user.mustChangePassword },
    { userId := userId
      tokenHash := jti
      familyId := family
      expiresAt := t'' + days settings.refreshTokenExpireDays
      revokedAt := none
      replacedBy := none })

/-- The flush of a new token. -/
def insertToken (row : RefreshToken) : Handler Unit := do
  let id ← .fresh
  .insert (.token id row)

/-- The flush of a user; one that has changed and is gone raises `StaleDataError`. -/
def flushUser (id : Uuid) (base cur : User) : Handler Bool := do
  if cur = base then return true
  else
    let data ← .update (.user id) fun _ => [.user id base cur]
    return (data.users.get id).isSome

/-- The rows of an `UPDATE refresh_tokens ... WHERE p AND revoked_at IS NULL`, one after the other.  A row
that another transaction has changed meanwhile is looked at again. -/
def revokeEach (p : RefreshToken → Bool) (t : Time) : List Uuid → Handler Unit
  | [] => pure ()
  | id :: ids => do
    let _ ← .update (.token id) fun data =>
      if (data.tokens.get id).any fun r => p r && r.revokedAt.isNone then [.revoke id t] else []
    revokeEach p t ids

def revokeUserRefreshTokens (userId : Uuid) : Handler Unit := do
  let t ← now
  let ids ← .select fun data =>
    (data.tokens.rowsWhere fun r => decide (r.userId = userId) && r.revokedAt.isNone).map Prod.fst
  revokeEach (fun r => decide (r.userId = userId)) t ids

/-- `_revoke_refresh_family`; the result is the tokens that the family had when the statement began. -/
def revokeRefreshFamily (familyId : Uuid) : Handler (List Uuid) := do
  let t ← now
  let (ids, seen) ← .select fun data =>
    ((data.tokens.rowsWhere fun r =>
        decide (r.familyId = familyId) && r.revokedAt.isNone).map Prod.fst,
      (data.tokens.rowsWhere fun r => decide (r.familyId = familyId)).map Prod.fst)
  revokeEach (fun r => decide (r.familyId = familyId)) t ids
  return seen

/-! ## Login -/

/-- `LoginRequest`, with the emails that the login name may stand for. -/
structure LoginRequest where
  candidates : List String
  password : String
  totpCode : Option String
  ip : Option String

/-- An audited refusal. -/
def refuseLogin (action : String) (actor : Option Uuid) (ip : Option String) (detail : String) :
    Handler (Except HttpError LoginResponse) := do
  let _ ← appendAudit c.sha256 action (actor.map toString) none ip
  .publish []
  httpError 401 detail

/-- The end of a login: the changed user is flushed when the audit log is read. -/
def completeLogin (id : Uuid) (user : User) (factor : Option Factor) (ip : Option String) :
    Handler (Except HttpError LoginResponse) := do
  let t ← now
  let cur := { factor.elim user user.use with lastLoginAt := some t }
  let found ← flushUser id user cur
  if found then
    let _ ← appendAudit c.sha256 "auth.login" (some (toString id)) none ip
    let (resp, token) ← issueTokens settings id cur none
    insertToken token
    .publish [.loggedIn id factor user.backupCodes]
    return .ok resp
  else serverError

def login (body : LoginRequest) : Handler (Except HttpError LoginResponse) := do
  let matching ← .select fun data =>
    data.users.rowsWhere fun u => decide (u.email ∈ body.candidates)
  let first ← .answer Env.first
  match matching[first % matching.length]? with
  | none => refuseLogin c "auth.login_failed" none body.ip "Sai email hoặc mật khẩu"
  | some (id, user) =>
    if truthy user.passwordHash = false ∨
        c.verifyPassword body.password (user.passwordHash.getD "") = false then
      refuseLogin c "auth.login_failed" (some id) body.ip "Sai email hoặc mật khẩu"
    else if user.isActive = false then
      refuseLogin c "auth.login_blocked" (some id) body.ip "Tài khoản đã bị khóa"
    else if user.is2faEnabled then
      if truthy body.totpCode then
        let t ← now
        match acceptFactor c user (body.totpCode.getD "") (t / 1000000) with
        | .error _ => serverError
        | .ok none => refuseLogin c "auth.totp_failed" (some id) body.ip "Mã 2FA không đúng"
        | .ok (some factor) => completeLogin c settings id user (some factor) body.ip
      else return .ok ⟨none, none, true, false⟩
    else completeLogin c settings id user none body.ip

/-! ## Refresh -/

/-- `"Refresh token không hợp lệ"`. -/
def invalidRefreshToken : Handler (Except HttpError LoginResponse) :=
  httpError 401 "Refresh token không hợp lệ"

/-- The answer to a token that was revoked: its family is revoked. -/
def refuseReplay (row : RefreshToken) : Handler (Except HttpError LoginResponse) := do
  let seen ← revokeRefreshFamily row.familyId
  let _ ← appendAudit c.sha256 "auth.refresh_reuse_detected" (some (toString row.userId)) none none
  .publish [.replayed row.familyId seen]
  invalidRefreshToken

/-- The rotation: the old token is revoked, the new one is of its family.  The flush updates the old row
and inserts the new one. -/
def rotate (id : Uuid) (row : RefreshToken) (userId : Uuid) (user : User) :
    Handler (Except HttpError LoginResponse) := do
  let t ← now
  let (resp, token) ← issueTokens settings userId user (some row.familyId)
  let _ ← .update (.token id) fun _ => [.revoke id t]
  insertToken token
  let new ← .select fun data =>
    (data.tokens.rowsWhere fun r => decide (r.tokenHash = token.tokenHash)).head?
  match new with
  | none => pure ()
  | some (newId, _) =>
    let _ ← .update (.token id) fun _ => [.replace id newId]
  .publish [.exchanged row.tokenHash]
  return .ok resp

def refresh (token : PresentedToken) : Handler (Except HttpError LoginResponse) := do
  match token.sub with
  | none => invalidRefreshToken
  | some userId =>
    let found ← .select fun data =>
      (data.tokens.rowsWhere fun r => decide (r.tokenHash = token.tokenHash)).head?
    match found with
    | none => invalidRefreshToken
    | some (id, row) =>
      let t ← now
      if row.expiresAt ≤ t then invalidRefreshToken
      else if row.revokedAt.isSome then refuseReplay c row
      else
        let user ← .select fun data => data.users.get userId
        match user with
        | none => httpError 401 "User không tồn tại"
        | some user =>
          if user.isActive then rotate settings id row userId user
          else httpError 401 "User không tồn tại"

/-! ## Routes of a user who is logged in -/

/-- The credentials of a request: an access token that names a user, one that cannot be decoded, or
none. -/
inductive Credentials where
  | missing
  | invalid
  | user (id : Uuid)
  deriving DecidableEq

def resolveUserFromToken (credentials : Credentials) : Handler (Except HttpError (Uuid × User)) := do
  match credentials with
  | .missing => httpError 401 "Thiếu token"
  | .invalid => httpError 401 "Token không hợp lệ hoặc hết hạn"
  | .user id =>
    let user ← .select fun data => data.users.get id
    match user with
    | none => httpError 401 "User không tồn tại hoặc bị khóa"
    | some user =>
      if user.isActive then return .ok (id, user)
      else httpError 401 "User không tồn tại hoặc bị khóa"

def getCurrentUser (credentials : Credentials) : Handler (Except HttpError (Uuid × User)) := do
  let user ← resolveUserFromToken credentials
  match user with
  | .error e => return .error e
  | .ok (id, user) =>
    if user.mustChangePassword then httpError 403 "PASSWORD_CHANGE_REQUIRED"
    else return .ok (id, user)

def totpConfirm (credentials : Credentials) (code : String) :
    Handler (Except HttpError LoginResponse) := do
  let user ← getCurrentUser credentials
  match user with
  | .error e => return .error e
  | .ok (id, user) =>
    if truthy user.totpSecretEncrypted then
      match c.decryptAesGcm (user.totpSecretEncrypted.getD "") with
      | .error _ => serverError
      | .ok secret =>
        let t ← now
        match verifyTotpCounter c secret code (t / 1000000) with
        | .error _ => serverError
        | .ok none => httpError 400 "Mã xác nhận không đúng"
        | .ok (some counter) =>
          let cur := { user with is2faEnabled := true, totpLastCounter := some counter }
          let found ← flushUser id user cur
          if found then
            let _ ← appendAudit c.sha256 "auth.totp_enabled" (some (toString id)) none none
            let (resp, token) ← issueTokens settings id cur none
            insertToken token
            .publish [.confirmed id counter]
            return .ok resp
          else serverError
    else httpError 400 "Chưa thiết lập 2FA"

def logout (credentials : Credentials) (tokenHash : Option ℕ) : Handler (Except HttpError Unit) := do
  let user ← resolveUserFromToken credentials
  match user with
  | .error e => return .error e
  | .ok (id, _) =>
    match tokenHash with
    | none => pure ()
    | some hash =>
      let found ← .select fun data =>
        (data.tokens.rowsWhere fun r => decide (r.tokenHash = hash) && r.revokedAt.isNone).head?
      match found with
      | none => pure ()
      | some (tokenId, _) =>
        let t ← now
        let _ ← .update (.token tokenId) fun _ => [.revoke tokenId t]
    let _ ← appendAudit c.sha256 "auth.logout" (some (toString id)) none none
    .publish []
    return .ok ()

def changePassword (credentials : Credentials) (currentPassword newPassword : String) :
    Handler (Except HttpError Unit) := do
  let user ← resolveUserFromToken credentials
  match user with
  | .error e => return .error e
  | .ok (id, user) =>
    match user.passwordHash with
    | none => serverError
    | some hash =>
      if c.verifyPassword currentPassword hash = false then
        httpError 401 "Mật khẩu hiện tại không đúng"
      else if currentPassword = newPassword then
        httpError 400 "Mật khẩu mới phải khác mật khẩu hiện tại"
      else
        let salt ← .fresh
        let cur :=
          { user with
            passwordHash := some (c.hashPassword salt newPassword)
            mustChangePassword := false }
        let found ← flushUser id user cur
        if found then
          revokeUserRefreshTokens id
          let _ ← appendAudit c.sha256 "auth.change_password" (some (toString id))
            (some (toString id)) none
          .publish []
          return .ok ()
        else serverError

end Routes

/-! ## Requests -/

/-- The requests of the routes. -/
inductive AuthRequest where
  | login (body : LoginRequest)
  | refresh (token : PresentedToken)
  | totpConfirm (credentials : Credentials) (code : String)
  | logout (credentials : Credentials) (tokenHash : Option ℕ)
  | changePassword (credentials : Credentials) (currentPassword newPassword : String)

/-- The program of a request. -/
def authRoute (c : Crypto) (settings : AuthSettings) : AuthRequest → Handler Unit
  | .login body => do let _ ← login c settings body
  | .refresh token => do let _ ← refresh c settings token
  | .totpConfirm credentials code => do let _ ← totpConfirm c settings credentials code
  | .logout credentials tokenHash => do let _ ← logout c credentials tokenHash
  | .changePassword credentials current new => do let _ ← changePassword c credentials current new

/-- The engine that runs the routes for authentication. -/
abbrev authStep (c : Crypto) (settings : AuthSettings) :
    Engine Data RowKey DataWrite Env Note → Op AuthRequest Env →
      Option (Engine Data RowKey DataWrite Env Note) :=
  Engine.step (authRoute c settings)

/-- Functions that hide nothing: a code is its time step. -/
def exampleCrypto : Crypto where
  sha256 text := text
  verifyPassword plain hashed := decide (plain = hashed)
  hashPassword _ plain := plain
  totpAt _ seconds := toString (seconds / totpInterval)
  encryptAesGcm _ plain := plain
  decryptAesGcm text := .ok text

/-- A user with a TOTP secret and a backup code. -/
def exampleUser : User where
  orgId := 0
  fullName := "Người dùng"
  email := "user@example.gov.vn"
  phoneEncrypted := none
  role := .viewer
  passwordHash := some "password"
  totpSecretEncrypted := some "secret"
  backupCodes := some ["backup"]
  is2faEnabled := true
  isActive := true
  lastLoginAt := none
  mustChangePassword := false
  totpLastCounter := none

/-- The user `0`. -/
def oneUser : Store Data RowKey Note :=
  { emptyStore with data := { emptyData with users := Table.empty.insert 0 exampleUser } }

/-- A quarter of an hour, and a week. -/
def exampleSettings : AuthSettings := ⟨15, 7⟩

def exampleLoginWith (code : String) : AuthRequest :=
  .login ⟨["user@example.gov.vn"], "password", some code, none⟩

/-! ## What the parts of the routes write -/

section Only

variable {A : DataWrite → Prop} {B : List Note → Prop}

theorem only_appendAudit (hA : ∀ row, A (.audit row)) (sha256 : String → String) (action : String)
    (actor target ip : Option String) :
    (appendAudit sha256 action actor target ip).Only A B fun _ => True :=
  only_answer _ fun _ => only_select _ fun _ => only_fresh fun _ =>
    only_insert (hA _) (only_pure trivial)

theorem only_issueTokens (settings : AuthSettings) (userId : Uuid) (user : User)
    (familyId : Option Uuid) : (issueTokens settings userId user familyId).Only A B fun x =>
      x.2.revokedAt = none ∧ ∀ family ∈ familyId, x.2.familyId = family := by
  refine only_answer _ fun _ => only_answer _ fun _ => only_fresh fun _ => ?_
  cases familyId with
  | none => exact fun _ _ => ⟨rfl, fun _ h => absurd h (by simp)⟩
  | some family => exact fun _ => ⟨rfl, fun f hf => Option.some.inj hf⟩

theorem only_insertToken {row : RefreshToken} (hA : ∀ id, A (.token id row)) :
    (insertToken row).Only A B fun _ => True :=
  only_fresh fun id => only_insert (hA id) (only_pure trivial)

theorem only_flushUser {id : Uuid} {base cur : User} (hA : A (.user id base cur)) :
    (flushUser id base cur).Only A B fun _ => True := by
  unfold flushUser
  split
  · exact only_pure trivial
  · exact only_update_one _ (fun _ => hA) fun _ => only_pure trivial

theorem only_revokeEach {t : Time} (hA : ∀ id, A (.revoke id t)) (p : RefreshToken → Bool)
    (ids : List Uuid) : (revokeEach p t ids).Only A B fun _ => True := by
  induction ids with
  | nil => exact only_pure trivial
  | cons id ids ih =>
    refine only_update _ (fun d w hw => ?_) fun _ => ih
    split at hw
    · rw [List.mem_singleton.mp hw]
      exact hA id
    · cases hw

theorem only_resolveUserFromToken (credentials : Credentials) :
    (resolveUserFromToken credentials).Only A B fun r => ∀ x, r = .ok x → x.2.isActive = true := by
  cases credentials with
  | missing => exact only_pure fun _ h => by cases h
  | invalid => exact only_pure fun _ h => by cases h
  | user id =>
    refine only_select _ fun user => ?_
    cases user with
    | none => exact only_pure fun _ h => by cases h
    | some user =>
      by_cases hactive : user.isActive = true
      · simp only [hactive, if_true]
        refine only_pure fun x hx => ?_
        cases hx
        exact hactive
      · simp only [hactive]
        exact only_pure fun _ h => by cases h

theorem only_getCurrentUser (credentials : Credentials) :
    (getCurrentUser credentials).Only A B fun r => ∀ x, r = .ok x → x.2.isActive = true := by
  refine (only_resolveUserFromToken credentials).bind fun r hr => ?_
  cases r with
  | error e => exact only_pure fun _ h => by cases h
  | ok x =>
    by_cases hmust : x.2.mustChangePassword = true
    · simp only [hmust, if_true]
      exact only_pure fun _ h => by cases h
    · simp only [hmust]
      exact only_pure hr

theorem only_refuseLogin (haudit : ∀ row, A (.audit row)) (hB : B []) (c : Crypto) (action : String)
    (actor : Option Uuid) (ip : Option String) (detail : String) :
    (refuseLogin c action actor ip detail).Only A B fun _ => True :=
  (only_appendAudit haudit _ _ _ _ _).bind fun _ _ => only_publish hB (only_pure trivial)

theorem only_revokeUserRefreshTokens (hrevoke : ∀ id t, A (.revoke id t)) (userId : Uuid) :
    (revokeUserRefreshTokens userId).Only A B fun _ => True :=
  only_answer _ fun _ => only_select _ fun _ => only_revokeEach (fun _ => hrevoke _ _) _ _

theorem only_revokeRefreshFamily (hrevoke : ∀ id t, A (.revoke id t)) (familyId : Uuid) :
    (revokeRefreshFamily familyId).Only A B fun _ => True :=
  only_answer _ fun _ => only_select _ fun _ =>
    (only_revokeEach (fun _ => hrevoke _ _) _ _).bind fun _ _ => only_pure trivial

theorem only_refresh (haudit : ∀ row, A (.audit row)) (hrevoke : ∀ id t, A (.revoke id t))
    (hreplace : ∀ id newId, A (.replace id newId)) (htoken : ∀ id row, A (.token id row))
    (hexchanged : ∀ h, B [.exchanged h]) (hreplayed : ∀ f seen, B [.replayed f seen]) (c : Crypto)
    (settings : AuthSettings) (token : PresentedToken) :
    (refresh c settings token).Only A B fun _ => True := by
  unfold refresh
  split
  · exact only_pure trivial
  · refine only_select _ fun found => ?_
    split
    · exact only_pure trivial
    · refine only_answer _ fun t => ?_
      split_ifs
      · exact only_pure trivial
      · exact (only_revokeRefreshFamily hrevoke _).bind fun seen _ =>
          (only_appendAudit haudit _ _ _ _ _).bind fun _ _ =>
            only_publish (hreplayed _ _) (only_pure trivial)
      · refine only_select _ fun user => ?_
        split
        · exact only_pure trivial
        · split_ifs
          · refine only_answer _ fun t' => (only_issueTokens _ _ _ _).bind fun issued _ => ?_
            refine only_update_one _ (fun _ => hrevoke _ _) fun _ => ?_
            refine (only_insertToken fun _ => htoken _ _).bind fun _ _ => ?_
            refine only_select _ fun new => ?_
            split
            · exact only_publish (hexchanged _) (only_pure trivial)
            · exact only_update_one _ (fun _ => hreplace _ _) fun _ =>
                only_publish (hexchanged _) (only_pure trivial)
          · exact only_pure trivial

theorem only_completeLogin (haudit : ∀ row, A (.audit row)) (htoken : ∀ id row, A (.token id row))
    (huser : ∀ id (user : User) (factor : Option Factor) t,
      A (.user id user { factor.elim user user.use with lastLoginAt := some t }))
    (hB : ∀ id factor codes, B [.loggedIn id factor codes]) (c : Crypto) (settings : AuthSettings)
    (id : Uuid) (user : User) (factor : Option Factor) (ip : Option String) :
    (completeLogin c settings id user factor ip).Only A B fun _ => True := by
  refine only_answer _ fun t => (only_flushUser (huser _ _ _ _)).bind fun found _ => ?_
  cases found with
  | false => exact only_pure trivial
  | true =>
    exact (only_appendAudit haudit _ _ _ _ _).bind fun _ _ =>
      (only_issueTokens _ _ _ _).bind fun _ _ => (only_insertToken fun _ => htoken _ _).bind fun _ _ =>
        only_publish (hB _ _ _) (only_pure trivial)

theorem only_login (haudit : ∀ row, A (.audit row)) (htoken : ∀ id row, A (.token id row))
    (huser : ∀ id (user : User) (factor : Option Factor) t,
      A (.user id user { factor.elim user user.use with lastLoginAt := some t }))
    (hnil : B []) (hB : ∀ id factor codes, B [.loggedIn id factor codes]) (c : Crypto)
    (settings : AuthSettings) (body : LoginRequest) :
    (login c settings body).Only A B fun _ => True := by
  have hcomplete := only_completeLogin haudit htoken huser hB c settings
  refine only_select _ fun matching => only_answer _ fun first => ?_
  split
  · exact only_refuseLogin haudit hnil _ _ _ _ _
  · split_ifs
    · exact only_refuseLogin haudit hnil _ _ _ _ _
    · exact only_refuseLogin haudit hnil _ _ _ _ _
    · refine only_answer _ fun t => ?_
      split
      · exact only_pure trivial
      · exact only_refuseLogin haudit hnil _ _ _ _ _
      · exact hcomplete _ _ _ _
    · exact only_pure trivial
    · exact hcomplete _ _ _ _

theorem only_logout (haudit : ∀ row, A (.audit row)) (hrevoke : ∀ id t, A (.revoke id t)) (hB : B [])
    (c : Crypto) (credentials : Credentials) (tokenHash : Option ℕ) :
    (logout c credentials tokenHash).Only A B fun _ => True := by
  have hend : ∀ id : Uuid, (do
      let _ ← appendAudit c.sha256 "auth.logout" (some (toString id)) none none
      Prog.publish []
      return Except.ok () : Handler (Except HttpError Unit)).Only A B fun _ => True := fun id =>
    (only_appendAudit haudit _ _ _ _ _).bind fun _ _ => only_publish hB (only_pure trivial)
  refine (only_resolveUserFromToken credentials).bind fun r _ => ?_
  cases r with
  | error e => exact only_pure trivial
  | ok x =>
    cases tokenHash with
    | none => exact hend x.1
    | some hash =>
      refine only_select _ fun found => ?_
      split
      · exact hend x.1
      · exact only_answer _ fun t => only_update_one _ (fun _ => hrevoke _ _) fun _ => hend x.1

theorem only_changePassword (haudit : ∀ row, A (.audit row)) (hrevoke : ∀ id t, A (.revoke id t))
    (huser : ∀ id (user : User) hash,
      A (.user id user { user with passwordHash := hash, mustChangePassword := false }))
    (hB : B []) (c : Crypto) (credentials : Credentials) (currentPassword newPassword : String) :
    (changePassword c credentials currentPassword newPassword).Only A B fun _ => True := by
  refine (only_resolveUserFromToken credentials).bind fun r _ => ?_
  cases r with
  | error e => exact only_pure trivial
  | ok x =>
    dsimp only
    split
    · exact only_pure trivial
    · split_ifs
      · exact only_pure trivial
      · exact only_pure trivial
      · refine only_fresh fun salt => (only_flushUser (huser _ _ _)).bind fun found _ => ?_
        split
        · exact (only_revokeUserRefreshTokens hrevoke _).bind fun _ _ =>
            (only_appendAudit haudit _ _ _ _ _).bind fun _ _ => only_publish hB (only_pure trivial)
        · exact only_pure trivial

end Only

/-! ## The user of a request -/

section Safe

variable {R : Discipline Data RowKey DataWrite Note} {p : TxId} {pending : List DataWrite}
  {s : Store Data RowKey Note}

/-- What the dependencies return has been read just now. -/
def ReadNow (pending : List DataWrite) (r : Except HttpError (Uuid × User)) (ws : List DataWrite)
    (t : Store Data RowKey Note) : Prop :=
  ws = pending ∧ ∀ x, r = .ok x → (t.view pending).users.get x.1 = some x.2

theorem safe_resolveUserFromToken (credentials : Credentials) :
    (resolveUserFromToken credentials).Safe R p (ReadNow pending) pending s := by
  cases credentials with
  | missing => exact safe_pure ⟨rfl, fun _ h => by cases h⟩
  | invalid => exact safe_pure ⟨rfl, fun _ h => by cases h⟩
  | user id =>
    refine safe_select _ fun t _ _ => ?_
    cases huser : (t.view pending).users.get id with
    | none => exact safe_pure ⟨rfl, fun _ h => by cases h⟩
    | some user =>
      dsimp only
      split
      · refine safe_pure ⟨rfl, fun x hx => ?_⟩
        cases hx
        exact huser
      · exact safe_pure ⟨rfl, fun _ h => by cases h⟩

theorem safe_getCurrentUser (credentials : Credentials) :
    (getCurrentUser credentials).Safe R p (ReadNow pending) pending s := by
  refine (safe_resolveUserFromToken credentials).bind fun r ws t hr => ?_
  cases r with
  | error e => exact safe_pure ⟨hr.1, fun _ h => by cases h⟩
  | ok x =>
    dsimp only
    split
    · exact safe_pure ⟨hr.1, fun _ h => by cases h⟩
    · exact safe_pure hr

end Safe

end AssetInventory.Server

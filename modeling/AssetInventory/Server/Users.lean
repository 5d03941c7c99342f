import AssetInventory.Server.Auth

/-!
# The routes for the administration of users

A super administrator changes a user, or deletes one.  The administrator is loaded when the request
starts; if the user is the same, the session keeps the copy that it has.

* `updateUser`, `deleteUser`: the routes.
* `requireRole`: who may call them.
* `otherSupers`: what `delete_user` counts before it deletes a super administrator.
-/

namespace AssetInventory.Server

open PyJson RowStore ReadCommitted

/-- `SUPER_ROLES`, and `SUPER_ADMIN_ROLES` of the dependencies. -/
def superRoles : List UserRole := [.superAdmin, .adminGlobal]

/-- `require_role`, with the answer to a user who has none of the roles. -/
def requireRole (roles : List UserRole) (detail : String) (credentials : Credentials) :
    Handler (Except HttpError (Uuid × User)) := do
  let user ← getCurrentUser credentials
  match user with
  | .error e => return .error e
  | .ok (id, user) =>
    if user.role ∈ roles then return .ok (id, user)
    else httpError 403 detail

/-- `require_super_admin()`. -/
def requireSuperAdmin (credentials : Credentials) : Handler (Except HttpError (Uuid × User)) :=
  requireRole superRoles "Cần quyền Super Admin" credentials

structure UserUpdateRequest where
  fullName : Option String
  role : Option UserRole
  orgId : Option Uuid
  isActive : Option Bool
  phone : Option String

section Routes

variable (c : Crypto)

/-! ## Update -/

/-- `encrypt_phone(body.phone) if body.phone else None`, if there is one in the request. -/
def encryptPhone (stored : Option String) : Option String → Handler (Option String)
  | none => pure stored
  | some phone => do
    if phone = "" then return none
    else
      let nonce ← .fresh
      return some (c.encryptAesGcm nonce phone)

/-- The query for the organisation, which flushes the user first.  The result is the user as flushed. -/
def checkOrganization (id : Uuid) (base cur : User) : Option Uuid → Handler (Except HttpError User)
  | none => return .ok base
  | some orgId => do
    let found ← flushUser id base cur
    if found then
      let exists_ ← .select fun data => decide (orgId ∈ data.organizations)
      if exists_ then return .ok cur
      else httpError 404 "Tổ chức không tồn tại"
    else serverError

/-- The columns that are assigned before the organisation is looked up. -/
def UserUpdateRequest.assignFirst (body : UserUpdateRequest) (user : User) : User :=
  { user with
    fullName := body.fullName.getD user.fullName
    role := body.role.getD user.role }

/-- All columns that `update_user` assigns. -/
def UserUpdateRequest.assign (body : UserUpdateRequest) (user : User) (phone : Option String) :
    User :=
  { body.assignFirst user with
    orgId := body.orgId.getD user.orgId
    isActive := body.isActive.getD user.isActive
    phoneEncrypted := phone }

/-- The assignments of `update_user` and what follows them. -/
def applyUpdate (adminId userId : Uuid) (user : User) (body : UserUpdateRequest)
    (ip : Option String) : Handler (Except HttpError User) := do
  let base ← checkOrganization userId user (body.assignFirst user) body.orgId
  match base with
  | .error e => return .error e
  | .ok base =>
    let phone ← encryptPhone c user.phoneEncrypted body.phone
    let found ← flushUser userId base (body.assign user phone)
    if found then
      let _ ← appendAudit c.sha256 "user.update" (some (toString adminId)) (some (toString userId)) ip
      .publish [.administered adminId userId]
      let refreshed ← .select fun data => data.users.get userId
      match refreshed with
      | none => serverError
      | some user => return .ok user
    else serverError

def updateUser (userId : Uuid) (credentials : Credentials) (body : UserUpdateRequest)
    (ip : Option String) : Handler (Except HttpError User) := do
  let admin ← requireRole superRoles "Không có quyền" credentials
  match admin with
  | .error e => return .error e
  | .ok (adminId, admin) =>
    let found ← .select fun data => data.users.get userId
    match found with
    | none => httpError 404 "Người dùng không tồn tại"
    | some row =>
      if userId = adminId then
        if body.role.any fun role => decide (role ∉ superRoles) then
          httpError 400 "Không thể tự hạ quyền tài khoản đang đăng nhập"
        else if body.isActive = some false then
          httpError 400 "Không thể tự khoá tài khoản đang đăng nhập"
        else applyUpdate c adminId userId admin body ip
      else applyUpdate c adminId userId row body ip

/-! ## Delete -/

/-- An active user with one of the roles of a super administrator. -/
def User.isActiveSuper (user : User) : Bool := user.isActive && decide (user.role ∈ superRoles)

/-- `other_super`: how many active super administrators there are beside the user. -/
def otherSupers (data : Data) (userId : Uuid) : ℕ :=
  ((data.users.rowsWhere User.isActiveSuper).filter fun x => x.1 ≠ userId).length

/-- Whether the user is the last super administrator; the others are counted for a super administrator
only. -/
def isLastSuper (userId : Uuid) (target : User) : Handler Bool := do
  if target.role ∈ superRoles then
    let others ← .select fun data => otherSupers data userId
    return decide (others = 0)
  else return false

/-- `delete_user`.  A row that is gone is not missed; the rows of other tables that refer to the user make
the commit fail. -/
def deleteUser (userId : Uuid) (credentials : Credentials) (ip : Option String) :
    Handler (Except HttpError Unit) := do
  let admin ← requireSuperAdmin credentials
  match admin with
  | .error e => return .error e
  | .ok (adminId, _) =>
    let found ← .select fun data => data.users.get userId
    match found with
    | none => httpError 404 "Người dùng không tồn tại"
    | some target =>
      if userId = adminId then httpError 400 "Không thể tự xóa tài khoản đang đăng nhập"
      else
        let last ← isLastSuper userId target
        if last then
          httpError 400 "Không thể xóa Super Admin cuối cùng còn hoạt động"
        else
          let _ ← appendAudit c.sha256 "user.delete" (some (toString adminId))
            (some (toString userId)) ip
          let data ← .update (.user userId) fun _ => [.deleteUser userId]
          let referenced ← .answer Env.referenced
          if referenced ∨ data.tokens.rowsWhere (fun r => decide (r.userId = userId)) ≠ [] then
            serverError
          else
            .publish [.administered adminId userId]
            return .ok ()

end Routes

/-! ## Requests -/

/-- The requests of the routes. -/
inductive UserRequest where
  | update (userId : Uuid) (credentials : Credentials) (body : UserUpdateRequest)
      (ip : Option String)
  | delete (userId : Uuid) (credentials : Credentials) (ip : Option String)

/-- The program of a request. -/
def userRoute (c : Crypto) : UserRequest → Handler Unit
  | .update userId credentials body ip => do let _ ← updateUser c userId credentials body ip
  | .delete userId credentials ip => do let _ ← deleteUser c userId credentials ip

theorem only_requireRole {A : DataWrite → Prop} {B : List Note → Prop} (roles : List UserRole)
    (detail : String) (credentials : Credentials) :
    (requireRole roles detail credentials).Only A B fun r =>
      ∀ x, r = .ok x → x.2.isActive = true ∧ x.2.role ∈ roles := by
  refine (only_getCurrentUser credentials).bind fun r hr => ?_
  cases r with
  | error e => exact only_pure fun _ h => by cases h
  | ok x =>
    by_cases hrole : x.2.role ∈ roles
    · simp only [hrole, if_true]
      refine only_pure fun y hy => ?_
      cases hy
      exact ⟨hr x rfl, hrole⟩
    · simp only [hrole, if_false]
      exact only_pure fun _ h => by cases h

end AssetInventory.Server

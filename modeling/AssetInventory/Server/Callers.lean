import AssetInventory.Lib.Alone
import AssetInventory.Server.Users

/-!
# Who calls a route

The dependencies by which a route gets its user, for routes over any tables that have users among them.

* `getCurrentUser`, `requireRole`, `requireAdmin`, `requireSuperAdmin`: the dependencies.
* `only_requireRole`, `keeps_requireRole`, `safe_requireRole`: they write nothing, and who passes is a user
  with one of the roles.
-/

namespace AssetInventory.Callers

open RowStore ReadCommitted Server

variable {D K W E V α : Type} (users : D → Table Uuid User)

/-- `get_current_user`, for the id that the access token says. -/
def getCurrentUser (caller : Option Uuid) : Prog D K W E V (Except HttpError (Uuid × User)) := do
  match caller with
  | none => return .error ⟨401, "Token không hợp lệ hoặc hết hạn"⟩
  | some id =>
    let user ← .select fun data => ((users data).get id).filter User.isActive
    match user with
    | none => return .error ⟨401, "User không tồn tại hoặc bị khóa"⟩
    | some user =>
      if user.mustChangePassword then return .error ⟨403, "PASSWORD_CHANGE_REQUIRED"⟩
      else return .ok (id, user)

/-- `require_role`, with the answer to a user who has none of the roles. -/
def requireRole (roles : List UserRole) (detail : String) (caller : Option Uuid) :
    Prog D K W E V (Except HttpError (Uuid × User)) := do
  let user ← getCurrentUser users caller
  match user with
  | .error e => return .error e
  | .ok (id, user) =>
    if user.role ∈ roles then return .ok (id, user) else return .error ⟨403, detail⟩

def adminRoles : List UserRole := [.superAdmin, .orgAdmin, .adminGlobal, .adminOrg]

def requireAdmin (caller : Option Uuid) : Prog D K W E V (Except HttpError (Uuid × User)) :=
  requireRole users adminRoles "Không có quyền" caller

def requireSuperAdmin (caller : Option Uuid) : Prog D K W E V (Except HttpError (Uuid × User)) :=
  requireRole users superRoles "Cần quyền Super Admin" caller

/-- The caller, if `require_role` lets the caller pass. -/
def callerWith (roles : List UserRole) (data : D) (caller : Option Uuid) : Option (Uuid × User) :=
  caller.bind fun id => (((users data).get id).filter fun user =>
    user.isActive && !user.mustChangePassword && decide (user.role ∈ roles)).map fun user => (id, user)

section Only

variable {A : W → Prop} {B : List V → Prop}

theorem only_getCurrentUser (caller : Option Uuid) :
    (getCurrentUser users caller : Prog D K W E V _).Only A B fun _ => True := by
  cases caller with
  | none => exact only_pure trivial
  | some id =>
    refine only_select _ fun user => ?_
    cases user with
    | none => exact only_pure trivial
    | some user =>
      dsimp only
      split
      · exact only_pure trivial
      · exact only_pure trivial

theorem only_requireRole (roles : List UserRole) (detail : String) (caller : Option Uuid) :
    (requireRole users roles detail caller : Prog D K W E V _).Only A B fun _ => True := by
  refine (only_getCurrentUser users caller).bind fun user _ => ?_
  cases user with
  | error e => exact only_pure trivial
  | ok x =>
    dsimp only
    split
    · exact only_pure trivial
    · exact only_pure trivial

end Only

/-- Whoever has an active account, no password to change and one of the roles. -/
theorem callerWith_eq_some {roles : List UserRole} {data : D} {id : Uuid} {user : User}
    (huser : ((users data).get id).filter User.isActive = some user)
    (hchange : user.mustChangePassword = false) (hrole : user.role ∈ roles) :
    callerWith users roles data (some id) = some (id, user) := by
  obtain ⟨hget, hactive⟩ := Option.filter_eq_some_iff.mp huser
  have hpass : (users data).get id = some user ∧
      (user.isActive && !user.mustChangePassword && decide (user.role ∈ roles)) = true := by
    refine ⟨hget, ?_⟩
    rw [hactive, hchange, decide_eq_true hrole]
    rfl
  rw [callerWith, Option.bind_some, Option.filter_eq_some_iff.mpr hpass, Option.map_some]

theorem callerWith_of_role {roles roles' : List UserRole} {data : D} {caller : Option Uuid}
    {id : Uuid}
    {user : User} (h : callerWith users roles data caller = some (id, user))
    (hrole : user.role ∈ roles') :
    callerWith users roles' data caller = some (id, user) := by
  obtain ⟨k, rfl, hk⟩ := Option.bind_eq_some_iff.mp h
  obtain ⟨row, hrow, hpair⟩ := Option.map_eq_some_iff.mp hk
  obtain ⟨rfl, rfl⟩ := Prod.mk.inj hpair
  obtain ⟨hget, hpass⟩ := Option.filter_eq_some_iff.mp hrow
  rw [Bool.and_eq_true, Bool.and_eq_true, Bool.not_eq_true'] at hpass
  exact callerWith_eq_some users (Option.filter_eq_some_iff.mpr ⟨hget, hpass.1.1⟩) hpass.1.2 hrole

section Keeps

variable [Applies W D] {I : D → Prop} {Q : α → Alone D W E → Prop} {x : Alone D W E}
  {f : Except HttpError (Uuid × User) → Prog D K W E V α}

theorem keeps_getCurrentUser (caller : Option Uuid) (herror : ∀ e, (f (.error e)).CommitsKeep I Q x)
    (hok : ∀ id user, (caller = some id ∧ ((users x.view).get id).filter User.isActive = some user) →
      user.mustChangePassword = false → (f (.ok (id, user))).CommitsKeep I Q x) :
    (getCurrentUser users caller >>= f).CommitsKeep I Q x := by
  cases caller with
  | none => exact herror _
  | some id =>
    refine Prog.CommitsKeep.bind (keeps_select _ ?_)
    cases huser : ((users x.view).get id).filter User.isActive with
    | none => exact herror _
    | some user =>
      dsimp only
      split
      · exact herror _
      · rename_i hchange
        exact keeps_pure (hok id user ⟨rfl, huser⟩ (Bool.eq_false_iff.mpr hchange))

theorem keeps_requireRole (roles : List UserRole) (detail : String) (caller : Option Uuid)
    (herror : ∀ e, (f (.error e)).CommitsKeep I Q x)
    (hok : ∀ id user, callerWith users roles x.view caller = some (id, user) →
      (f (.ok (id, user))).CommitsKeep I Q x) :
    (requireRole users roles detail caller >>= f).CommitsKeep I Q x := by
  refine Prog.CommitsKeep.bind (keeps_getCurrentUser users caller (fun e => keeps_pure (herror e))
    fun id user huser hchange => ?_)
  dsimp only
  split
  · rename_i hrole
    rw [huser.1] at hok
    exact keeps_pure (hok id user (callerWith_eq_some users huser.2 hchange hrole))
  · exact keeps_pure (herror _)

end Keeps

theorem safe_requireRole [Applies W D] [DecidableEq K] {R : Discipline D K W V} {p : TxId}
    {Q : α → List W → Store D K V → Prop} {pending : List W} {s : Store D K V}
    {f : Except HttpError (Uuid × User) → Prog D K W E V α} (roles : List UserRole)
    (detail : String) (caller : Option Uuid)
    (herror : ∀ e t, R.Rely p s t → (f (.error e)).Safe R p Q pending t)
    (hok : ∀ id user t, R.Rely p s t → R.Inv t →
      callerWith users roles (t.view pending) caller = some (id, user) →
      (f (.ok (id, user))).Safe R p Q pending t) :
    (requireRole users roles detail caller >>= f).Safe R p Q pending s := by
  cases caller with
  | none => exact herror _ s (R.rely_refl p s)
  | some id =>
    have hcurrent : (getCurrentUser users (some id) : Prog D K W E V _).Safe R p
        (fun a ws t => ws = pending ∧ R.Rely p s t ∧ ∀ x, a = .ok x →
          R.Inv t ∧ x.1 = id ∧ ((users (t.view pending)).get id).filter User.isActive = some x.2 ∧
            x.2.mustChangePassword = false) pending s := by
      refine safe_select _ fun t hst ht => ?_
      cases huser : ((users (t.view pending)).get id).filter User.isActive with
      | none => exact safe_pure ⟨rfl, hst, fun x hx => by cases hx⟩
      | some user =>
        dsimp only
        split
        · exact safe_pure ⟨rfl, hst, fun x hx => by cases hx⟩
        · rename_i hchange
          refine safe_pure ⟨rfl, hst, ?_⟩
          rintro _ ⟨⟩
          exact ⟨ht, rfl, huser, Bool.eq_false_iff.mpr hchange⟩
    refine (Prog.safe_bind _ _ _ _ _).mpr (hcurrent.bind ?_)
    rintro a ws t ⟨rfl, hst, ha⟩
    cases a with
    | error e => exact herror e t hst
    | ok x =>
      obtain ⟨ht, hid, huser, hchange⟩ := ha x rfl
      dsimp only
      split
      · rename_i hrole
        refine safe_pure (hok x.1 x.2 t hst ht ?_)
        rw [hid]
        exact callerWith_eq_some users huser hchange hrole
      · exact safe_pure (herror _ t hst)

end AssetInventory.Callers

import AssetInventory.Fleet.Portal
import AssetInventory.Lib.ForeignKeys

/-!
# Tokens, from their creation to their removal

Administrators create tokens; machines use them, or are refused with them, and a refusal keeps the token
it was for.  Tokens are removed by an administrator, who revokes or deletes one, and by the monitor, which
removes in one statement all that have expired or were revoked.

* `createToken`, `createTokensBulk`, `reissueToken`, `claim`: new tokens.
* `deleteTokens`: a deletion, which fails when an attempt refers to one of the tokens.
* `revokeToken`, `deleteToken`, `cleanupTokens`: the three ways of removal.
* `TokenAction.Right`: a removal does what it is for; `TokenAction.Cleared`: no attempt refers to what it
  removes, and no used token has expired.
* `removals_right_iff`: all removals of a history are right exactly when all are cleared.
* `refusal_blocks_deletion`: a token that was used, and shown once more.
-/

namespace AssetInventory.Fleet

open PyJson PyTime Orm RowStore ReadCommitted Server

variable (c : PortalSettings)

/-! ## Creation -/

/-- A new token for a person. -/
structure TokenItem where
  fullName : Option String
  email : Option String
  note : Option String

/-- What tokens are created for. -/
structure TokenOrder where
  orgId : Uuid
  ttlHours : ℤ
  classification : Option String
  purposeTags : List String

/-- `TokenCreateResponse`, without the commands that install the agent. -/
structure TokenCreateResponse where
  token : String
  expiresAt : Time

/-- The refusal for organisations that the administrator does not see. -/
def noTokenRight : String := "Không có quyền sinh token cho tổ chức này"

/-- A token that waits for its machine. -/
def newToken (order : TokenOrder) (item : TokenItem) (createdBy : Uuid) (expiresAt : Time)
    (tokenHash : String) : EnrollToken where
  tokenHash := tokenHash
  orgId := order.orgId
  createdBy := createdBy
  fullName := item.fullName
  email := item.email
  note := item.note
  expiresAt := expiresAt
  usedAt := none
  usedBy := none
  status := .pending
  classification := order.classification
  purposeTags := order.purposeTags

/-- A token is generated, and its row inserted. -/
def generateToken (row : String → EnrollToken) : Handler String := do
  let random ← .fresh
  let token := c.tokenText random
  let id ← .fresh
  .insert (.newToken id (row (c.fleet.identification.sha256 token)))
  return token

def createToken (order : TokenOrder) (item : TokenItem) (caller : Option Uuid) :
    Handler (Except HttpError TokenCreateResponse) := do
  let admin ← requireAdmin caller
  match admin with
  | .error e => return .error e
  | .ok (adminId, admin) =>
    let visible ← .select fun data => visibleOrgs data admin
    if order.orgId ∉ visible then httpError 403 noTokenRight
    else
      let time ← now
      let expires := time + minutes (order.ttlHours * 60)
      let token ← generateToken c (newToken order item adminId expires)
      .publish []
      return .ok ⟨token, expires⟩

/-- The loop of `create_tokens_bulk`. -/
def generateTokens (row : TokenItem → String → EnrollToken) : List TokenItem → Handler (List String)
  | [] => return []
  | item :: items => do
    let token ← generateToken c (row item)
    let tokens ← generateTokens row items
    return token :: tokens

def createTokensBulk (order : TokenOrder) (items : List TokenItem) (caller : Option Uuid) :
    Handler (Except HttpError (List TokenCreateResponse)) := do
  let admin ← requireAdmin caller
  match admin with
  | .error e => return .error e
  | .ok (adminId, admin) =>
    let visible ← .select fun data => visibleOrgs data admin
    if order.orgId ∉ visible then httpError 403 noTokenRight
    else
      let time ← now
      let expires := time + minutes (order.ttlHours * 60)
      let tokens ← generateTokens c (fun item => newToken order item adminId expires) items
      .publish []
      return .ok (tokens.map fun token => ⟨token, expires⟩)

/-- The note of a token that has been issued again: the new row has no id before it is flushed. -/
def EnrollToken.supersededNote (old : EnrollToken) : String :=
  old.note.getD "" ++ " [superseded by None]"

def reissueToken (tokenId : Uuid) (caller : Option Uuid) :
    Handler (Except HttpError TokenCreateResponse) := do
  let admin ← requireAdmin caller
  match admin with
  | .error e => return .error e
  | .ok (adminId, admin) =>
    let old ← .select fun data => data.tokens.get tokenId
    match old with
    | none => httpError 404 "Token không tồn tại"
    | some old =>
      let visible ← .select fun data => visibleOrgs data admin
      if old.orgId ∉ visible then httpError 403 "Không có quyền thao tác token này"
      else if old.status = .used then
        httpError 400 "Token đã used — không tái sinh được. Sinh token mới."
      else if old.status = .revoked then
        httpError 400 "Token đã revoked — không tái sinh được. Sinh token mới."
      else
        let time ← now
        let expires := time + minutes (72 * 60)
        let item : TokenItem := ⟨old.fullName, old.email, some (old.note.getD "" ++ " [reissue]")⟩
        let order : TokenOrder := ⟨old.orgId, 72, old.classification, old.purposeTags⟩
        let token ← generateToken c (newToken order item adminId expires)
        flushToken tokenId old { old with note := some old.supersededNote }
        .publish []
        return .ok ⟨token, expires⟩

/-- The columns of a row of `self_service_links` that a claim reads. -/
structure SelfServiceLink where
  orgId : Uuid
  enabled : Bool
  createdBy : Uuid

/-- `claim`, for the link that the code of the request names. -/
def claim (link : Option SelfServiceLink) (item : TokenItem) :
    Handler (Except HttpError TokenCreateResponse) := do
  match link.filter SelfServiceLink.enabled with
  | none => httpError 404 "Link không tồn tại hoặc đã bị khóa"
  | some link =>
    let time ← now
    let expires := time + minutes (72 * 60)
    let order : TokenOrder := ⟨link.orgId, 72, some "official", []⟩
    let token ← generateToken c (newToken order item link.createdBy expires)
    .publish []
    return .ok ⟨token, expires⟩

/-- The requests for new tokens. -/
inductive TokenRequest where
  | create (order : TokenOrder) (item : TokenItem) (caller : Option Uuid)
  | bulk (order : TokenOrder) (items : List TokenItem) (caller : Option Uuid)
  | reissue (tokenId : Uuid) (caller : Option Uuid)
  | claim (link : Option SelfServiceLink) (item : TokenItem)

/-- The program of a request. -/
def tokenRoute : TokenRequest → Handler Unit
  | .create order item caller => do let _ ← createToken c order item caller
  | .bulk order items caller => do let _ ← createTokensBulk c order items caller
  | .reissue tokenId caller => do let _ ← reissueToken c tokenId caller
  | .claim link item => do let _ ← claim c link item

/-! ## Removal -/

/-- `enroll_attempts.token_id`. -/
def attemptToken : ForeignKey Uuid EnrollAttempt := .strict EnrollAttempt.tokenId

/-- The ids of some tokens. -/
def Data.tokenIs (data : Data) (which : Uuid → EnrollToken → Bool) (id : Uuid) : Bool :=
  (data.tokens.get id).any (which id)

/-- `DELETE FROM enroll_tokens`; `none` is a violation of the key of the attempts. -/
def deleteTokens (which : Uuid → EnrollToken → Bool) (data : Data) : Option Data :=
  if attemptToken.Refuses (data.tokenIs which) data.attempts.rows then none
  else some { data with tokens := data.tokens.restrict fun id t => !which id t }

/-- `revoke_token`, for an administrator. -/
def revokeToken (admin : User) (tokenId : Uuid) (data : Data) : Data × Except HttpError Unit :=
  match data.tokens.get tokenId with
  | none => (data, .error ⟨404, "Token không tồn tại"⟩)
  | some row =>
    if row.orgId ∉ visibleOrgs data admin then
      (data, .error ⟨403, "Không có quyền thu hồi token này"⟩)
    else if row.status = .used then
      (data, .error ⟨400, "Token đã dùng — không revoke được"⟩)
    else
      match deleteTokens (fun id _ => decide (id = tokenId)) data with
      | none => (data, .error ⟨500, "Internal Server Error"⟩)
      | some after => (after, .ok ())

/-- `delete_token`, for a super administrator; `violation` is the text of the exception. -/
def deleteToken (violation : String) (tokenId : Uuid) (data : Data) : Data × Except HttpError Unit :=
  match data.tokens.get tokenId with
  | none => (data, .error ⟨404, "Token không tồn tại"⟩)
  | some _ =>
    match deleteTokens (fun id _ => decide (id = tokenId)) data with
    | none => (data, .error ⟨500, "Không xóa được token: IntegrityError: " ++ truncate 200 violation⟩)
    | some after => (after, .ok ())

/-- The tokens that the monitor selects. -/
def EnrollToken.selected (time : Time) (t : EnrollToken) : Bool :=
  decide (t.expiresAt < time) || decide (t.status = .expired) || decide (t.status = .revoked)

/-- `_cleanup_tokens`, and whether it went without an exception; one is logged. -/
def cleanupTokens (time : Time) (data : Data) : Data × Bool :=
  match deleteTokens (fun _ t => t.selected time) data with
  | none => (data, false)
  | some after => (after, true)

/-! ## Histories -/

/-- What happens next. -/
inductive TokenAction where
  | fleet (request : FleetRequest) (answers : ℕ → Env)
  | portal (request : PortalRequest) (answers : ℕ → Env)
  | token (request : TokenRequest) (answers : ℕ → Env)
  | revoke (admin : User) (tokenId : Uuid)
  | delete (violation : String) (tokenId : Uuid)
  | cleanup (time : Time)

/-- What an action leaves. -/
def afterAction (s : AtRest Data) : TokenAction → AtRest Data
  | .fleet request answers => (serveAlone (fleetRoute c.fleet) s request answers).2
  | .portal request answers => (serveAlone (portalRoute c) s request answers).2
  | .token request answers => (serveAlone (tokenRoute c) s request answers).2
  | .revoke admin tokenId => { s with data := (revokeToken admin tokenId s.data).1 }
  | .delete violation tokenId => { s with data := (deleteToken violation tokenId s.data).1 }
  | .cleanup time => { s with data := (cleanupTokens time s.data).1 }

/-- A token that is revoked, or expired without having been used. -/
def EnrollToken.Obsolete (t : EnrollToken) (time : Time) : Prop :=
  t.status = .revoked ∨ t.status = .expired ∨ t.status ≠ .used ∧ t.expiresAt < time

/-- An attempt refers to the token. -/
def Referred (data : Data) (tokenId : Uuid) : Prop :=
  ∃ id a, data.attempts.get id = some a ∧ a.tokenId = some tokenId

/-- **A removal does what it is for**: a pending token is revoked, any token is deleted, and a clean-up
removes the tokens that are obsolete and leaves the others. -/
def TokenAction.Right (data : Data) : TokenAction → Prop
  | .revoke admin tokenId => ∀ row, data.tokens.get tokenId = some row → row.status = .pending →
      row.orgId ∈ visibleOrgs data admin →
        (revokeToken admin tokenId data).2 = .ok () ∧
          (revokeToken admin tokenId data).1.tokens.get tokenId = none
  | .delete violation tokenId => ∀ row, data.tokens.get tokenId = some row →
      (deleteToken violation tokenId data).2 = .ok () ∧
        (deleteToken violation tokenId data).1.tokens.get tokenId = none
  | .cleanup time => (cleanupTokens time data).2 = true ∧ ∀ tokenId row,
      (cleanupTokens time data).1.tokens.get tokenId = some row ↔
        data.tokens.get tokenId = some row ∧ ¬ row.Obsolete time
  | _ => True

/-- **No attempt refers to what is removed**, and a clean-up finds no used token that has expired. -/
def TokenAction.Cleared (data : Data) : TokenAction → Prop
  | .revoke admin tokenId => ∀ row, data.tokens.get tokenId = some row → row.status = .pending →
      row.orgId ∈ visibleOrgs data admin → ¬ Referred data tokenId
  | .delete _ tokenId => ∀ row, data.tokens.get tokenId = some row → ¬ Referred data tokenId
  | .cleanup time => ∀ tokenId row, data.tokens.get tokenId = some row →
      (row.Obsolete time → ¬ Referred data tokenId) ∧ (row.status = .used → ¬ row.expiresAt < time)
  | _ => True

/-- A property of all actions of a history. -/
def AllActions (P : Data → TokenAction → Prop) : AtRest Data → List TokenAction → Prop
  | _, [] => True
  | s, action :: actions => P s.data action ∧ AllActions P (afterAction c s action) actions

/-! ## Deletions -/

section Deletions

variable {data after : Data} {which : Uuid → EnrollToken → Bool} {tokenId : Uuid} {row : EnrollToken}
  {time : Time}

/-- A deletion is refused exactly when an attempt refers to one of the tokens. -/
theorem refuses_iff : attemptToken.Refuses (data.tokenIs which) data.attempts.rows ↔
    ∃ tokenId row, data.tokens.get tokenId = some row ∧ which tokenId row = true ∧
      Referred data tokenId := by
  constructor
  · rintro ⟨-, a, ha, hrefers⟩
    obtain ⟨id, hget⟩ := Table.mem_rows.mp ha
    obtain ⟨tokenId, htoken, hwhich⟩ := refersTo_eq_true.mp hrefers
    obtain ⟨row, hrow, htrue⟩ := (Option.any_eq_true _ _).mp hwhich
    exact ⟨tokenId, row, hrow, htrue, id, a, hget, htoken⟩
  · rintro ⟨tokenId, row, hrow, htrue, id, a, hget, htoken⟩
    have hwhich : data.tokenIs which tokenId = true := by
      rw [Data.tokenIs, hrow, Option.any_some]
      exact htrue
    exact ⟨rfl, a, Table.mem_rows.mpr ⟨id, hget⟩, refersTo_eq_true.mpr ⟨tokenId, htoken, hwhich⟩⟩

theorem deleteTokens_eq_none : deleteTokens which data = none ↔
    ∃ tokenId row, data.tokens.get tokenId = some row ∧ which tokenId row = true ∧
      Referred data tokenId := by
  rw [← refuses_iff, deleteTokens]
  split
  · rename_i hrefuses
    exact iff_of_true rfl hrefuses
  · rename_i hnot
    exact iff_of_false (by simp) hnot

/-- **A deletion** removes the tokens it is for, and no others. -/
theorem get_deleteTokens (h : deleteTokens which data = some after) :
    after.tokens.get tokenId = some row ↔
      data.tokens.get tokenId = some row ∧ which tokenId row = false := by
  rw [deleteTokens] at h
  split at h
  · cases h
  · obtain rfl := Option.some.inj h
    change (data.tokens.get tokenId).filter _ = some row ↔ _
    rw [Option.filter_eq_some_iff]
    simp

theorem deleteTokens_one (hrow : data.tokens.get tokenId = some row) :
    deleteTokens (fun id _ => decide (id = tokenId)) data = none ↔ Referred data tokenId := by
  rw [deleteTokens_eq_none]
  constructor
  · rintro ⟨id, _, -, hid, hreferred⟩
    obtain rfl := of_decide_eq_true hid
    exact hreferred
  · exact fun hreferred => ⟨tokenId, row, hrow, decide_eq_true rfl, hreferred⟩

theorem get_deleteTokens_one (h : deleteTokens (fun id _ => decide (id = tokenId)) data = some after) :
    after.tokens.get tokenId = none := by
  rw [Option.eq_none_iff_forall_ne_some]
  intro row hrow
  have hnot := (get_deleteTokens h).mp hrow
  simp at hnot

/-- What the monitor selects: the obsolete tokens, and the used ones that have expired. -/
theorem selected_iff : row.selected time = true ↔
    row.Obsolete time ∨ row.status = .used ∧ row.expiresAt < time := by
  rw [EnrollToken.selected, EnrollToken.Obsolete]
  simp only [Bool.or_eq_true, decide_eq_true_eq]
  by_cases hused : row.status = .used
  · simp [hused]
  · simp only [hused, ne_eq, not_false_eq_true, true_and, false_and, or_false]
    tauto

theorem right_revoke (admin : User) (tokenId : Uuid) :
    (TokenAction.revoke admin tokenId).Right data ↔
    (TokenAction.revoke admin tokenId).Cleared data := by
  refine forall_congr' fun row => forall_congr' fun hrow => forall_congr' fun hpending =>
    forall_congr' fun hvisible => ?_
  have hused : row.status ≠ .used := by
    rw [hpending]
    decide
  have hrevoke : revokeToken admin tokenId data =
      match deleteTokens (fun id _ => decide (id = tokenId)) data with
      | none => (data, .error ⟨500, "Internal Server Error"⟩)
      | some after => (after, .ok ()) := by
    rw [revokeToken, hrow]
    simp only [not_true_eq_false, hvisible, if_false, hused]
  rw [hrevoke, ← deleteTokens_one hrow]
  cases hdelete : deleteTokens (fun id _ => decide (id = tokenId)) data with
  | none => simp
  | some after => simp [get_deleteTokens_one hdelete]

theorem right_delete (violation : String) (tokenId : Uuid) :
    (TokenAction.delete violation tokenId).Right data ↔
      (TokenAction.delete violation tokenId).Cleared data := by
  refine forall_congr' fun row => forall_congr' fun hrow => ?_
  have hcall : deleteToken violation tokenId data =
      match deleteTokens (fun id _ => decide (id = tokenId)) data with
      | none =>
        (data, .error ⟨500, "Không xóa được token: IntegrityError: " ++ truncate 200 violation⟩)
      | some after => (after, .ok ()) := by rw [deleteToken, hrow]
  rw [hcall, ← deleteTokens_one hrow]
  cases hdelete : deleteTokens (fun id _ => decide (id = tokenId)) data with
  | none => simp
  | some after => simp [get_deleteTokens_one hdelete]

theorem right_cleanup (time : Time) :
    (TokenAction.cleanup time).Right data ↔ (TokenAction.cleanup time).Cleared data := by
  have hcleanup : cleanupTokens time data =
      match deleteTokens (fun _ t => t.selected time) data with
      | none => (data, false)
      | some after => (after, true) := rfl
  rw [TokenAction.Right, hcleanup, TokenAction.Cleared]
  cases hdelete : deleteTokens (fun _ t => t.selected time) data with
  | none =>
    -- the statement fails as a whole, because of a token that is selected
    obtain ⟨tokenId, row, hrow, hselected, hreferred⟩ := deleteTokens_eq_none.mp hdelete
    refine iff_of_false (by simp) fun hcleared => ?_
    obtain ⟨hobsolete, hused⟩ := hcleared tokenId row hrow
    rcases selected_iff.mp hselected with h | ⟨h, hexpired⟩
    · exact hobsolete h hreferred
    · exact hused h hexpired
  | some after =>
    have hfree : ∀ tokenId row, data.tokens.get tokenId = some row → row.selected time = true →
        ¬ Referred data tokenId := by
      intro tokenId row hrow hselected hreferred
      have hnone : deleteTokens (fun _ t => t.selected time) data = none :=
        deleteTokens_eq_none.mpr ⟨tokenId, row, hrow, hselected, hreferred⟩
      rw [hdelete] at hnone
      cases hnone
    simp only [true_and]
    constructor
    · intro hexact tokenId row hrow
      refine ⟨fun h => hfree tokenId row hrow (selected_iff.mpr (.inl h)), fun hused hexpired => ?_⟩
      have hnot : ¬ row.Obsolete time := by
        rintro (h | h | h)
        · rw [hused] at h
          cases h
        · rw [hused] at h
          cases h
        · exact h.1 hused
      have hleft := (get_deleteTokens hdelete).mp ((hexact tokenId row).mpr ⟨hrow, hnot⟩)
      have hselected : row.selected time = true := selected_iff.mpr (.inr ⟨hused, hexpired⟩)
      rw [hselected] at hleft
      cases hleft.2
    · intro hcleared tokenId row
      rw [get_deleteTokens hdelete]
      refine and_congr_right fun hrow => ?_
      rw [← Bool.not_eq_true, selected_iff, not_or]
      exact and_iff_left fun h => (hcleared tokenId row hrow).2 h.1 h.2

/-- **One action.** -/
theorem right_iff_cleared (action : TokenAction) : action.Right data ↔ action.Cleared data := by
  cases action with
  | fleet request answers => exact Iff.rfl
  | portal request answers => exact Iff.rfl
  | token request answers => exact Iff.rfl
  | revoke admin tokenId => exact right_revoke admin tokenId
  | delete violation tokenId => exact right_delete violation tokenId
  | cleanup time => exact right_cleanup time

end Deletions

/-- **All removals of a history are right** exactly when none of them meets a reference, and no clean-up a
used token that has expired. -/
theorem removals_right_iff (s : AtRest Data) (actions : List TokenAction) :
    AllActions c TokenAction.Right s actions ↔ AllActions c TokenAction.Cleared s actions := by
  induction actions generalizing s with
  | nil => exact Iff.rfl
  | cons action actions ih => exact and_congr (right_iff_cleared action) (ih _)

/-- The settings of the examples, with one text for all tokens. -/
def exampleTokens : PortalSettings where
  fleet := exampleFleet
  orgName := fun _ => none
  collation := fun _ => 0
  maskPhone := id
  encryptPhone := id
  tokenText := fun _ => "token"
  requestDefinedAt := 0

/-- A token is created; a machine uses it, and another machine shows it again. -/
def exampleShownTwice : List TokenAction :=
  [.token (.create ⟨0, 72, none, []⟩ ⟨none, none, none⟩ (some 0)) fun _ => exampleAnswer,
    .fleet (exampleEnrollment "4C4C4544") fun _ => exampleAnswer,
    .fleet (exampleEnrollment "5D5D5D5D") fun _ => exampleAnswer]

/-- **A token that was used, and shown once more**, cannot be deleted. -/
theorem refusal_blocks_deletion : ¬ ∀ (c : PortalSettings) (s : AtRest Data)
    (actions : List TokenAction),
    s.data.tokens.keys = [] → s.data.attempts.keys =
    [] → AllActions c TokenAction.Right s actions := by
  intro h
  have hright := h exampleTokens ⟨adminData, 0⟩ (exampleShownTwice ++ [.delete "" 1]) rfl rfl
  have hdelete : (TokenAction.delete "" 1).Right
      (exampleShownTwice.foldl (afterAction exampleTokens) ⟨adminData, 0⟩).data :=
    hright.2.2.2.1
  have hused : ((exampleShownTwice.foldl (afterAction exampleTokens) ⟨adminData, 0⟩).data.tokens.get
      1).map EnrollToken.status = some .used ∧
      (deleteToken "" 1 (exampleShownTwice.foldl (afterAction exampleTokens) ⟨adminData, 0⟩).data).2.isOk =
        false := by
    decide +kernel
  obtain ⟨row, hrow, -⟩ := Option.map_eq_some_iff.mp hused.1
  have hrefused := hused.2
  rw [(hdelete row hrow).1] at hrefused
  cases hrefused

end AssetInventory.Fleet

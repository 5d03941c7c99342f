import AssetInventory.Dfir.Requests
import AssetInventory.Lib.Readback
import AssetInventory.Lib.Veil

/-!
# The old name of the super administrator

`admin_global` is the old name of the role `super_admin`.  The dependencies know both names, and so the routes that
write treat them alike; the routes that read requests compare the role with the new name.

* `listRequests`, `getRequest`: the routes that read; `ApiCall`: all calls.
* `asAlias`: the data with the old name for the role of one account; `Agrees`: a call has the same outcome.
* `blind_answerRequest`: the routes that write do not see which of the names it is.
* `agrees_iff`: when a call has the same outcome under both names.
-/

namespace AssetInventory.DfirRequests

open PyTime RowStore ReadCommitted Server Readback

/-! ## The routes that read -/

/-- The conditions of the query of `list_requests`. -/
def listedWhere (userId : Uuid) (isSuper : Bool) (statusFilter : Option String) (machineId : Option Uuid)
    (req : DfirInvestigationRequest) : Bool :=
  (isSuper || decide (req.requestedBy = userId)) &&
    ((given statusFilter).all fun status => decide (req.status.value = status)) &&
    machineId.all fun id => decide (req.machineId = id)

section Reads

variable (rank : Uuid → ℕ)

/-- The rows in the order of their creation, the newest first; rows of the same time are in the order that the
database has found them in. -/
def newestFirst (rows : List (Uuid × DfirInvestigationRequest)) : List (Uuid × DfirInvestigationRequest) :=
  (inOrder rank rows).insertionSort fun a b => b.2.createdAt ≤ a.2.createdAt

/-- The query of `list_requests`. -/
def listed (userId : Uuid) (isSuper : Bool) (statusFilter : Option String) (machineId : Option Uuid) (limit : ℕ)
    (data : Data) : List (Uuid × DfirInvestigationRequest) :=
  (newestFirst rank (data.requests.rowsWhere (listedWhere userId isSuper statusFilter machineId))).take limit

/-- The comprehension over the rows. -/
def requestsToOut (includeVendor : Bool) :
    List (Uuid × DfirInvestigationRequest) → Handler (List DfirInvestigationRequestOut)
  | [] => return []
  | row :: rows => do
    let out ← requestToOut row.1 row.2 includeVendor
    let outs ← requestsToOut includeVendor rows
    return out :: outs

def listRequests (statusFilter : Option String) (machineId : Option Uuid) (limit : ℕ) (caller : Option Uuid) :
    Handler (Except HttpError (List DfirInvestigationRequestOut)) := do
  let user ← Callers.getCurrentUser Data.users caller
  match user with
  | .error e => return .error e
  | .ok (userId, user) =>
    let isSuper := decide (user.role = .superAdmin)
    let rows ← .select (listed rank userId isSuper statusFilter machineId limit)
    let outs ← requestsToOut isSuper rows
    return .ok outs

end Reads

def getRequest (reqId : Uuid) (caller : Option Uuid) : Handler (Except HttpError DfirInvestigationRequestOut) := do
  let user ← Callers.getCurrentUser Data.users caller
  match user with
  | .error e => return .error e
  | .ok (userId, user) =>
    let found ← .select fun data => data.requests.get reqId
    match found with
    | none => return .error ⟨404, "Yêu cầu không tồn tại"⟩
    | some req =>
      if user.role ≠ .superAdmin ∧ req.requestedBy ≠ userId then
        return .error ⟨403, "Không có quyền xem yêu cầu này"⟩
      else
        let out ← requestToOut reqId req (decide (user.role = .superAdmin))
        return .ok out

/-! ## Calls -/

/-- A call of the routes, by a user. -/
inductive ApiCall where
  | create (body : DfirInvestigationRequestCreate) (ip : Option String)
  | list (statusFilter : Option String) (machineId : Option Uuid) (limit : ℕ)
  | get (reqId : Uuid)
  | decide (decision : Decision) (reqId : Uuid) (ip : Option String)

/-- What a call returns. -/
inductive Answer where
  | one (out : Except HttpError DfirInvestigationRequestOut)
  | many (outs : Except HttpError (List DfirInvestigationRequestOut))

def ApiCall.answer (c : Config) (rank : Uuid → ℕ) (caller : Option Uuid) : ApiCall → Handler Answer
  | .create body ip => do
    let out ← answerRequest c (.create body caller ip)
    return .one out
  | .list statusFilter machineId limit => do
    let outs ← listRequests rank statusFilter machineId limit caller
    return .many outs
  | .get reqId => do
    let out ← getRequest reqId caller
    return .one out
  | .decide decision reqId ip => do
    let out ← answerRequest c (.decide decision reqId caller ip)
    return .one out

/-- The data with the old name for the role of an account. -/
def asAlias (id : Uuid) (data : Data) : Data :=
  { data with users := data.users.modify id fun user => { user with role := .adminGlobal } }

/-- What comes of a program: what it returns, and the data. -/
def outcome {α : Type} (m : Handler α) (x : Alone Data DataWrite Time) : α × Data := ((m.alone x).1, (m.alone x).2.data)

/-- The state in which a request starts. -/
def starting (data : Data) (drawn : ℕ) (answers : ℕ → Time) : Alone Data DataWrite Time := ⟨data, [], drawn, answers⟩

/-- **A call has the same outcome** under both names of the role. -/
def Agrees (c : Config) (rank : Uuid → ℕ) (call : ApiCall) (id : Uuid) (data : Data) (drawn : ℕ)
    (answers : ℕ → Time) : Prop :=
  outcome (call.answer c rank (some id)) (starting (asAlias id data) drawn answers) =
    Prod.map (fun a => a) (asAlias id) (outcome (call.answer c rank (some id)) (starting data drawn answers))

/-! ## What the new name is not needed for -/

/-- The old name hides the new one. -/
def aliasVeil (id : Uuid) : Veil Data DataWrite Unit where
  shown := asAlias id
  covered := fun _ => ()
  Clear := fun _ => True
  shown_apply := fun {w _} _ => by cases w <;> rfl
  covered_apply := fun _ => rfl

section Users

variable {id : Uuid} {data : Data} {user : User}

theorem fullName_asAlias (id' : Uuid) :
    ((asAlias id data).users.get id').map User.fullName = (data.users.get id').map User.fullName := by
  by_cases h : id' = id
  · rw [h, asAlias, Table.get_modify_self, Option.map_map]
    rfl
  · rw [asAlias, Table.get_modify_of_ne _ _ h]

theorem get_asAlias (huser : data.users.get id = some user) :
    (asAlias id data).users.get id = some { user with role := .adminGlobal } := by
  rw [asAlias, Table.get_modify_self, huser, Option.map_some]

/-- `get_current_user`, as a function of the users. -/
def currentUser (users : Table Uuid User) (id : Uuid) : Except HttpError (Uuid × User) :=
  match (users.get id).filter User.isActive with
  | none => .error ⟨401, "User không tồn tại hoặc bị khóa"⟩
  | some user => if user.mustChangePassword then .error ⟨403, "PASSWORD_CHANGE_REQUIRED"⟩ else .ok (id, user)

theorem getCurrentUser_bind {α : Type} (f : Except HttpError (Uuid × User) → Handler α) :
    (Callers.getCurrentUser Data.users (some id) >>= f : Handler α) =
      Prog.select (fun data => currentUser data.users id) >>= f := by
  refine congrArg Prog.read (funext fun data => ?_)
  show Prog.bind (match (data.users.get id).filter User.isActive with
    | none => _
    | some user => _) f = f (currentUser data.users id)
  unfold currentUser
  cases (data.users.get id).filter User.isActive with
  | none => rfl
  | some user =>
    dsimp only
    split
    · rfl
    · rfl

/-- `require_role`, as a function of the users. -/
def userWithRole (roles : List UserRole) (detail : String) (users : Table Uuid User) (id : Uuid) :
    Except HttpError (Uuid × User) :=
  match currentUser users id with
  | .error e => .error e
  | .ok (id, user) => if user.role ∈ roles then .ok (id, user) else .error ⟨403, detail⟩

theorem requireRole_bind {α : Type} (roles : List UserRole) (detail : String)
    (f : Except HttpError (Uuid × User) → Handler α) :
    (Callers.requireRole Data.users roles detail (some id) >>= f : Handler α) =
      Prog.select (fun data => userWithRole roles detail data.users id) >>= f := by
  refine (congrArg (fun m => m >>= f) (getCurrentUser_bind _)).trans ?_
  refine congrArg Prog.read (funext fun data => ?_)
  show Prog.bind (match currentUser data.users id with
    | .error e => _
    | .ok (id, user) => _) f = f (userWithRole roles detail data.users id)
  unfold userWithRole
  cases currentUser data.users id with
  | error e => rfl
  | ok x =>
    dsimp only
    split
    · rfl
    · rfl

/-- Under the old name the same account is let pass, or refused in the same way. -/
theorem currentUser_asAlias (huser : data.users.get id = some user) :
    currentUser (asAlias id data).users id =
      (currentUser data.users id).map fun x => (x.1, { x.2 with role := .adminGlobal }) := by
  unfold currentUser
  rw [get_asAlias huser, huser]
  by_cases hactive : user.isActive = true
  · rw [Option.filter_some, if_pos hactive, Option.filter_some, if_pos hactive]
    dsimp only
    split
    · rfl
    · rfl
  · rw [Option.filter_some, if_neg hactive, Option.filter_some, if_neg hactive]
    rfl

theorem currentUser_eq_ok {x : Uuid × User} (huser : data.users.get id = some user)
    (h : currentUser data.users id = .ok x) :
    x = (id, user) ∧ user.isActive = true ∧ user.mustChangePassword = false := by
  unfold currentUser at h
  rw [huser] at h
  by_cases hactive : user.isActive = true
  · rw [Option.filter_some, if_pos hactive] at h
    dsimp only at h
    by_cases hchange : user.mustChangePassword = true
    · rw [if_pos hchange] at h
      cases h
    · rw [if_neg hchange] at h
      cases h
      exact ⟨rfl, hactive, Bool.eq_false_iff.mpr hchange⟩
  · rw [Option.filter_some, if_neg hactive] at h
    cases h

theorem currentUser_of_active (huser : data.users.get id = some user) (hactive : user.isActive = true)
    (hchange : user.mustChangePassword = false) : currentUser data.users id = .ok (id, user) := by
  unfold currentUser
  rw [huser, Option.filter_some, if_pos hactive]
  dsimp only
  rw [if_neg (Bool.eq_false_iff.mp hchange)]

theorem userWithRole_asAlias {roles : List UserRole} (detail : String) (huser : data.users.get id = some user)
    (hrole : user.role = .superAdmin) (hnew : UserRole.superAdmin ∈ roles) (hold : UserRole.adminGlobal ∈ roles) :
    (userWithRole roles detail (asAlias id data).users id).map Prod.fst =
      (userWithRole roles detail data.users id).map Prod.fst := by
  unfold userWithRole
  rw [currentUser_asAlias huser]
  cases hcurrent : currentUser data.users id with
  | error e => rfl
  | ok x =>
    obtain ⟨rfl, -, -⟩ := currentUser_eq_ok huser hcurrent
    show Except.map _ (if _ then _ else _) = Except.map _ (if _ then _ else _)
    rw [if_pos hold, hrole, if_pos hnew]
    rfl

end Users

/-! ## The routes that write -/

section Blind

variable {α : Type} {id : Uuid} {user : User} {x : Alone Data DataWrite Time}

theorem blind_requireRole {roles : List UserRole} {detail : String} {f : Except HttpError (Uuid × User) → Handler α}
    (huser : x.view.users.get id = some user) (hrole : user.role = .superAdmin) (hnew : UserRole.superAdmin ∈ roles)
    (hold : UserRole.adminGlobal ∈ roles) (hf : ∀ i u u', f (.ok (i, u)) = f (.ok (i, u')))
    (h : ∀ r, (f r).Blind (aliasVeil id) x) :
    (Callers.requireRole Data.users roles detail (some id) >>= f).Blind (aliasVeil id) x := by
  rw [requireRole_bind]
  refine blind_select_of ?_ (h _)
  have hsame := userWithRole_asAlias detail huser hrole hnew hold
  show f (userWithRole roles detail (asAlias id x.view).users id) = f (userWithRole roles detail x.view.users id)
  cases hshown : userWithRole roles detail (asAlias id x.view).users id with
  | error e =>
    cases hview : userWithRole roles detail x.view.users id with
    | error e' =>
      rw [hshown, hview] at hsame
      cases hsame
      rfl
    | ok y =>
      rw [hshown, hview] at hsame
      cases hsame
  | ok y =>
    cases hview : userWithRole roles detail x.view.users id with
    | error e' =>
      rw [hshown, hview] at hsame
      cases hsame
    | ok z =>
      rw [hshown, hview] at hsame
      obtain ⟨i, u⟩ := y
      obtain ⟨j, v⟩ := z
      cases hsame
      exact hf _ _ _

theorem blind_requestToOut {f : DfirInvestigationRequestOut → Handler α} (reqId : Uuid)
    (req : DfirInvestigationRequest) (includeVendor : Bool) (h : ∀ out, (f out).Blind (aliasVeil id) x) :
    (requestToOut reqId req includeVendor >>= f).Blind (aliasVeil id) x := by
  refine Prog.Blind.bind (blind_select_of ?_ (blind_select rfl blind_pure)) (h _)
  simp only [aliasVeil, fullName_asAlias]

variable {reqId admin : Uuid}

theorem blind_refreshed {includeVendor : Bool} : (refreshed reqId includeVendor).Blind (aliasVeil id) x := by
  refine blind_select rfl ?_
  cases x.view.requests.get reqId with
  | none => exact blind_pure
  | some req => exact blind_requestToOut reqId req includeVendor fun out => blind_pure

variable {ip statusFilter : Option String}

theorem blind_appendAudit {c : Config} {action actor target : String} {machineId : Uuid}
    {f : Unit → Handler α} (h : ∀ y, (f ()).Blind (aliasVeil id) y) :
    (appendAudit c action actor target ip machineId >>= f).Blind (aliasVeil id) x :=
  Prog.Blind.bind (blind_answer (blind_select rfl (blind_fresh (blind_insert trivial blind_pure)))) (h _)

theorem blind_decideRequest {c : Config} {action : Action} {auditAction : String} {refusal : Status → String}
    {assign : DfirInvestigationRequest → Handler DfirInvestigationRequest}
    (hassign : ∀ req y, (assign req).Blind (aliasVeil id) y) :
    (decideRequest c action auditAction refusal assign reqId ip admin).Blind (aliasVeil id) x := by
  refine blind_select rfl ?_
  cases x.view.requests.get reqId with
  | none => exact blind_pure
  | some req =>
    dsimp only
    split
    · refine (hassign req x).bind (Prog.Blind.bind ?_ ?_)
      · unfold flushRequest
        split
        · exact blind_pure
        · exact blind_update (fun _ _ => trivial) rfl blind_pure
      · split
        · exact blind_appendAudit fun y => blind_publish blind_refreshed
        · exact blind_pure
    · exact blind_pure

theorem blind_route {c : Config} {decision : Decision} :
    (decision.route c reqId ip admin).Blind (aliasVeil id) x := by
  have happrove : (approveRequest c reqId ip admin).Blind (aliasVeil id) x :=
    blind_decideRequest fun _ _ => blind_pure
  have hreject : ∀ body, (rejectRequest c reqId body ip admin).Blind (aliasVeil id) x :=
    fun _ => blind_decideRequest fun _ _ => blind_pure
  have hcomplete : ∀ body, (completeRequest c reqId body ip admin).Blind (aliasVeil id) x :=
    fun _ => blind_decideRequest fun _ _ => blind_answer blind_pure
  cases decision with
  | approve => exact happrove
  | reject body => exact hreject body
  | complete body => exact hcomplete body
  | patch body =>
    show (patchRequest c reqId body ip admin).Blind _ _
    unfold patchRequest
    cases body.action with
    | approve => exact happrove
    | reject => exact hreject body
    | complete => exact hcomplete body
    | fail => exact blind_decideRequest fun _ _ => blind_answer blind_pure

/-- **The routes that write** do not see under which name an account is a super administrator. -/
theorem blind_answerRequest {c : Config} (huser : x.view.users.get id = some user) (hrole : user.role = .superAdmin) :
    (∀ body ip, (answerRequest c (.create body (some id) ip)).Blind (aliasVeil id) x) ∧
      ∀ decision reqId ip, (answerRequest c (.decide decision reqId (some id) ip)).Blind (aliasVeil id) x := by
  constructor
  · intro body ip
    refine blind_requireRole huser hrole (by decide) (by decide) (fun _ _ _ => rfl) fun r => ?_
    cases r with
    | error e => exact blind_pure
    | ok y =>
      refine blind_select rfl ?_
      split
      · exact blind_pure
      · exact blind_fresh (blind_insert trivial (blind_appendAudit fun y => blind_publish blind_refreshed))
  · intro decision reqId ip
    refine blind_requireRole huser hrole (by decide) (by decide) (fun _ _ _ => rfl) fun r => ?_
    cases r with
    | error e => exact blind_pure
    | ok y => exact blind_route

end Blind

/-! ## What is read -/

/-- `_request_to_out`, as a function of the data. -/
def outOf (data : Data) (includeVendor : Bool) (row : Uuid × DfirInvestigationRequest) :
    DfirInvestigationRequestOut where
  id := row.1
  machineId := row.2.machineId
  machineHostname := (data.machines.get row.2.machineId).bind fun hostname => hostname
  artifact := row.2.artifact
  reason := row.2.reason
  urgency := row.2.urgency
  status := row.2.status
  requestedBy := (data.users.get row.2.requestedBy).map User.fullName
  requestedAt := row.2.createdAt
  reviewNotes := row.2.reviewNotes
  completedAt := row.2.completedAt
  velociraptorFlowId := if includeVendor then row.2.velociraptorFlowId else none
  velociraptorUrl := if includeVendor then row.2.velociraptorUrl else none

/-- What a user sees of a row without being a super administrator is all that there is. -/
structure Plain (userId : Uuid) (req : DfirInvestigationRequest) : Prop where
  own : req.requestedBy = userId
  noFlow : req.velociraptorFlowId = none
  noUrl : req.velociraptorUrl = none

section Reads

variable {data : Data} {id : Uuid} {user : User} {x : Alone Data DataWrite Time}

theorem outOf_asAlias : outOf (asAlias id data) = outOf data := by
  funext includeVendor row
  unfold outOf
  rw [fullName_asAlias]
  rfl

theorem outOf_eq_iff {row row' : Uuid × DfirInvestigationRequest} (h : row'.1 = row.1 → row' = row) :
    outOf data false row' = outOf data true row ↔
      row' = row ∧ row.2.velociraptorFlowId = none ∧ row.2.velociraptorUrl = none := by
  constructor
  · intro heq
    have hrow := h (congrArg DfirInvestigationRequestOut.id heq)
    exact ⟨hrow, (congrArg DfirInvestigationRequestOut.velociraptorFlowId heq).symm,
      (congrArg DfirInvestigationRequestOut.velociraptorUrl heq).symm⟩
  · rintro ⟨rfl, hflow, hurl⟩
    unfold outOf
    rw [hflow, hurl]
    rfl

theorem alone_requestsToOut (includeVendor : Bool) (rows : List (Uuid × DfirInvestigationRequest)) :
    (requestsToOut includeVendor rows).alone x = (rows.map (outOf x.view includeVendor), x) := by
  induction rows with
  | nil => rfl
  | cons row rows ih =>
    show (requestsToOut includeVendor rows >>= fun outs => pure (outOf x.view includeVendor row :: outs)).alone x = _
    rw [alone_bind, ih]
    rfl

theorem alone_listRequests (rank : Uuid → ℕ) (statusFilter : Option String) (machineId : Option Uuid) (limit : ℕ) :
    (listRequests rank statusFilter machineId limit (some id)).alone x =
      ((currentUser x.view.users id).map fun y => (listed rank y.1 (decide (y.2.role = .superAdmin)) statusFilter
        machineId limit x.view).map (outOf x.view (decide (y.2.role = .superAdmin))), x) := by
  rw [listRequests, getCurrentUser_bind, alone_select]
  cases currentUser x.view.users id with
  | error e => rfl
  | ok y =>
    obtain ⟨userId, user⟩ := y
    dsimp only
    rw [alone_select, alone_bind, alone_requestsToOut]
    rfl

/-- What `get_request` makes of a row that it has found or not. -/
def readable (data : Data) (reqId : Uuid) (caller : Uuid × User) : Except HttpError DfirInvestigationRequestOut :=
  match data.requests.get reqId with
  | none => .error ⟨404, "Yêu cầu không tồn tại"⟩
  | some req =>
    if caller.2.role ≠ .superAdmin ∧ req.requestedBy ≠ caller.1 then .error ⟨403, "Không có quyền xem yêu cầu này"⟩
    else .ok (outOf data (decide (caller.2.role = .superAdmin)) (reqId, req))

theorem alone_getRequest (reqId : Uuid) : (getRequest reqId (some id)).alone x =
    ((currentUser x.view.users id).bind (readable x.view reqId), x) := by
  rw [getRequest, getCurrentUser_bind, alone_select]
  cases currentUser x.view.users id with
  | error e => rfl
  | ok y =>
    obtain ⟨userId, user⟩ := y
    dsimp only
    rw [alone_select]
    show _ = (readable x.view reqId (userId, user), x)
    unfold readable
    cases x.view.requests.get reqId with
    | none => rfl
    | some req =>
      dsimp only
      split
      · rfl
      · rfl

/-- Who is no super administrator is shown the own requests among those that a super administrator is shown. -/
theorem newestFirst_own (rank : Uuid → ℕ) (statusFilter : Option String) (machineId : Option Uuid) :
    newestFirst rank (data.requests.rowsWhere (listedWhere id false statusFilter machineId)) =
      (newestFirst rank (data.requests.rowsWhere (listedWhere id true statusFilter machineId))).filter
        fun row => decide (row.2.requestedBy = id) := by
  have hrows : data.requests.rowsWhere (listedWhere id false statusFilter machineId) =
      (data.requests.rowsWhere (listedWhere id true statusFilter machineId)).filter
        fun row => decide (row.2.requestedBy = id) := by
    unfold Table.rowsWhere
    rw [List.filter_filterMap]
    refine List.filterMap_congr fun key _ => ?_
    cases data.requests.get key with
    | none => rfl
    | some req =>
      have hwhere : listedWhere id false statusFilter machineId req =
          (listedWhere id true statusFilter machineId req && decide (req.requestedBy = id)) := by
        simp only [listedWhere, Bool.false_or, Bool.true_or, Bool.true_and, Bool.and_comm, Bool.and_left_comm]
      rw [Option.bind_some, Option.bind_some, hwhere]
      cases listedWhere id true statusFilter machineId req with
      | false => rfl
      | true =>
        rw [Bool.true_and, if_pos rfl, Option.filter_some]
  rw [newestFirst, newestFirst, inOrder, inOrder, filter_insertionSort, filter_insertionSort, hrows]

variable {machineId : Option Uuid}

theorem mem_listed {statusFilter : Option String} {rank : Uuid → ℕ} {isSuper : Bool}
    {limit : ℕ} {row : Uuid × DfirInvestigationRequest}
    (h : row ∈ listed rank id isSuper statusFilter machineId limit data) : data.requests.get row.1 = some row.2 := by
  have hrow := List.mem_of_mem_take h
  rw [newestFirst, List.mem_insertionSort, mem_inOrder] at hrow
  exact (Table.mem_rowsWhere.mp hrow).1

theorem map_listed_iff {statusFilter : Option String} {rank : Uuid → ℕ} {limit : ℕ} :
    (listed rank id false statusFilter machineId limit data).map (outOf data false) =
        (listed rank id true statusFilter machineId limit data).map (outOf data true) ↔
      ∀ row ∈ listed rank id true statusFilter machineId limit data, Plain id row.2 := by
  constructor
  · intro heq row hrow
    have hmem := List.mem_map_of_mem (f := outOf data true) hrow
    rw [← heq] at hmem
    obtain ⟨row', hrow', hout⟩ := List.mem_map.mp hmem
    -- an id belongs to one row
    have hkey : row'.1 = row.1 → row' = row := fun hid =>
      Prod.ext hid (Option.some.inj ((mem_listed hrow').symm.trans (hid ▸ mem_listed hrow)))
    obtain ⟨rfl, hflow, hurl⟩ := (outOf_eq_iff hkey).mp hout
    have hown := List.mem_of_mem_take hrow'
    rw [newestFirst_own] at hown
    exact ⟨of_decide_eq_true (List.mem_filter.mp hown).2, hflow, hurl⟩
  · intro hplain
    have hsame : listed rank id false statusFilter machineId limit data =
        listed rank id true statusFilter machineId limit data := by
      rw [listed, newestFirst_own]
      exact take_filter_of_forall fun row hrow => decide_eq_true (hplain row hrow).own
    rw [hsame]
    refine List.map_congr_left fun row hrow => (outOf_eq_iff fun _ => rfl).mpr ⟨rfl, ?_⟩
    exact ⟨(hplain row hrow).noFlow, (hplain row hrow).noUrl⟩

theorem readable_iff {reqId : Uuid} (user user' : User) (hold : user'.role = .adminGlobal)
    (hnew : user.role = .superAdmin) : readable data reqId (id, user') = readable data reqId (id, user) ↔
      ∀ req ∈ data.requests.get reqId, Plain id req := by
  unfold readable
  cases hget : data.requests.get reqId with
  | none => exact iff_of_true rfl fun req hreq => absurd hreq (Option.not_mem_none req)
  | some req =>
    dsimp only
    rw [hold, hnew, if_neg (c := UserRole.superAdmin ≠ .superAdmin ∧ _) fun h => h.1 rfl]
    constructor
    · intro heq req' hreq'
      cases hreq'
      by_cases hown : req.requestedBy = id
      · rw [if_neg fun h => h.2 hown] at heq
        obtain ⟨-, hflow, hurl⟩ := (outOf_eq_iff fun _ => rfl).mp (Except.ok.inj heq)
        exact ⟨hown, hflow, hurl⟩
      · rw [if_pos ⟨by decide, hown⟩] at heq
        cases heq
    · intro hplain
      obtain ⟨hown, hflow, hurl⟩ := hplain req rfl
      rw [if_neg fun h => h.2 hown]
      exact congrArg Except.ok ((outOf_eq_iff fun _ => rfl).mpr ⟨rfl, hflow, hurl⟩)

end Reads

/-! ## When the names agree -/

/-- What a call needs in order to have the same outcome under both names. -/
def ApiCall.Alike (rank : Uuid → ℕ) (id : Uuid) (data : Data) : ApiCall → Prop
  | .list statusFilter machineId limit =>
    ∀ row ∈ listed rank id true statusFilter machineId limit data, Plain id row.2
  | .get reqId => ∀ req ∈ data.requests.get reqId, Plain id req
  | .create _ _ => True
  | .decide _ _ _ => True

section Outcomes

variable {c : Config} {rank : Uuid → ℕ} {id : Uuid} {user : User} {data : Data} {drawn : ℕ} {answers : ℕ → Time}

theorem outcome_list {statusFilter : Option String} {machineId : Option Uuid} {limit : ℕ} :
    outcome ((ApiCall.list statusFilter machineId limit).answer c rank (some id)) (starting data drawn answers) =
      (.many ((currentUser data.users id).map fun y => (listed rank y.1 (decide (y.2.role = .superAdmin)) statusFilter
        machineId limit data).map (outOf data (decide (y.2.role = .superAdmin)))), data) := by
  rw [outcome, ApiCall.answer, alone_bind, alone_listRequests]
  rfl

theorem outcome_get {reqId : Uuid} :
    outcome ((ApiCall.get reqId).answer c rank (some id)) (starting data drawn answers) =
      (.one ((currentUser data.users id).bind (readable data reqId)), data) := by
  rw [outcome, ApiCall.answer, alone_bind, alone_getRequest]
  rfl

theorem currentUser_cases (huser : data.users.get id = some user) :
    (currentUser data.users id = .ok (id, user) ∧ user.isActive = true ∧ user.mustChangePassword = false) ∨
      (∃ e, currentUser data.users id = .error e) ∧ ¬(user.isActive = true ∧ user.mustChangePassword = false) := by
  cases hcurrent : currentUser data.users id with
  | error e =>
    refine .inr ⟨⟨e, rfl⟩, fun ⟨hactive, hchange⟩ => ?_⟩
    rw [currentUser_of_active huser hactive hchange] at hcurrent
    cases hcurrent
  | ok y =>
    obtain ⟨rfl, hactive, hchange⟩ := currentUser_eq_ok huser hcurrent
    exact .inl ⟨rfl, hactive, hchange⟩

theorem agrees_list_iff {statusFilter : Option String} {machineId : Option Uuid} {limit : ℕ}
    (huser : data.users.get id = some user) (hrole : user.role = .superAdmin) :
    Agrees c rank (.list statusFilter machineId limit) id data drawn answers ↔
      (user.isActive = true → user.mustChangePassword = false →
        (ApiCall.list statusFilter machineId limit).Alike rank id data) := by
  rw [Agrees, outcome_list, outcome_list, Prod.map_apply, Prod.mk.injEq, and_iff_left rfl, Answer.many.injEq,
    currentUser_asAlias huser]
  rcases currentUser_cases huser with ⟨hcurrent, hactive, hchange⟩ | ⟨⟨e, hcurrent⟩, hrefused⟩
  · rw [hcurrent]
    refine Iff.trans ?_ (forall_prop_of_true hactive |>.trans (forall_prop_of_true hchange)).symm
    refine (Except.ok.injEq _ _).to_iff.trans ?_
    dsimp only
    rw [hrole, outOf_asAlias]
    exact map_listed_iff
  · rw [hcurrent]
    exact iff_of_true rfl fun hactive hchange => absurd ⟨hactive, hchange⟩ hrefused

theorem agrees_get_iff {reqId : Uuid} (huser : data.users.get id = some user) (hrole : user.role = .superAdmin) :
    Agrees c rank (.get reqId) id data drawn answers ↔
      (user.isActive = true → user.mustChangePassword = false → (ApiCall.get reqId).Alike rank id data) := by
  rw [Agrees, outcome_get, outcome_get, Prod.map_apply, Prod.mk.injEq, and_iff_left rfl, Answer.one.injEq,
    currentUser_asAlias huser]
  rcases currentUser_cases huser with ⟨hcurrent, hactive, hchange⟩ | ⟨⟨e, hcurrent⟩, hrefused⟩
  · rw [hcurrent]
    refine Iff.trans ?_ (forall_prop_of_true hactive |>.trans (forall_prop_of_true hchange)).symm
    refine Iff.trans ?_ (readable_iff user { user with role := .adminGlobal } rfl hrole)
    have hread : readable (asAlias id data) reqId = readable data reqId := by
      funext y
      unfold readable
      rw [outOf_asAlias]
      rfl
    rw [hread]
    rfl
  · rw [hcurrent]
    exact iff_of_true rfl fun hactive hchange => absurd ⟨hactive, hchange⟩ hrefused

end Outcomes

/-- **When a call has the same outcome under both names of the role**: always for the calls that write; for those
that read, if every request that a super administrator is shown is the caller's own and has no field of the vendor. -/
theorem agrees_iff (c : Config) (rank : Uuid → ℕ) (call : ApiCall) {id : Uuid} (user : User) {data : Data}
    (drawn : ℕ) (answers : ℕ → Time) (huser : data.users.get id = some user) (hrole : user.role = .superAdmin) :
    Agrees c rank call id data drawn answers ↔
      (user.isActive = true → user.mustChangePassword = false → call.Alike rank id data) := by
  have hblind : ∀ m : Handler Answer, m.Blind (aliasVeil id) (starting data drawn answers) →
      outcome m (starting (asAlias id data) drawn answers) =
        Prod.map (fun a => a) (asAlias id) (outcome m (starting data drawn answers)) := by
    intro m hm
    have halone := (hm.alone (List.forall_mem_nil _)).1
    show ((m.alone ((starting data drawn answers).veiled (aliasVeil id))).1,
      (m.alone ((starting data drawn answers).veiled (aliasVeil id))).2.data) = _
    rw [halone]
    rfl
  obtain ⟨hcreate, hdecide⟩ := blind_answerRequest (c := c) (x := starting data drawn answers) huser hrole
  cases call with
  | create body ip =>
    exact iff_of_true (hblind _ ((hcreate body ip).bind blind_pure)) fun _ _ => trivial
  | decide decision reqId ip =>
    exact iff_of_true (hblind _ ((hdecide decision reqId ip).bind blind_pure)) fun _ _ => trivial
  | list statusFilter machineId limit => exact agrees_list_iff huser hrole
  | get reqId => exact agrees_get_iff huser hrole

/-! ## Two requests -/

/-- A super administrator. -/
def superUser : User where
  orgId := 1
  fullName := "Nguyễn Văn A"
  email := "admin@example.gov.vn"
  phoneEncrypted := none
  role := .superAdmin
  passwordHash := some "hash"
  totpSecretEncrypted := none
  backupCodes := none
  is2faEnabled := false
  isActive := true
  lastLoginAt := none
  mustChangePassword := false
  totpLastCounter := none

/-- A request that waits. -/
def pendingOf (requestedBy : Uuid) : DfirInvestigationRequest where
  machineId := 1
  artifact := "Windows.System.Pslist"
  reason := none
  urgency := .normal
  status := .pending
  requestedBy := requestedBy
  reviewedBy := none
  reviewNotes := none
  velociraptorFlowId := none
  velociraptorUrl := none
  completedAt := none
  createdAt := 0

/-- A request of the super administrator, and one of somebody else. -/
def twoRequests : Data where
  users := (Table.empty.insert 7 superUser).insert 8 { superUser with role := .orgAdmin }
  machines := .empty
  requests := (Table.empty.insert 3 (pendingOf 8)).insert 4 (pendingOf 7)
  audit := []

/-- Nothing is hashed. -/
def plainConfig : Config := ⟨fun s => s, 0⟩

theorem agrees_own : Agrees plainConfig (fun id => id) (.get 4) 7 twoRequests 0 fun _ => 0 := by
  refine (agrees_iff plainConfig (fun id => id) (.get 4) superUser 0 (fun _ => 0) rfl rfl).mpr ?_
  intro _ _ req hreq
  cases hreq
  exact ⟨rfl, rfl, rfl⟩

/-- **Under the old name a request is approved, and not shown.** -/
theorem approved_not_shown : ¬Agrees plainConfig (fun id => id) (.get 3) 7 twoRequests 0 (fun _ => 0) ∧
    (outcome ((ApiCall.get 3).answer plainConfig (fun id => id) (some 7))
      (starting (asAlias 7 twoRequests) 0 fun _ => 0)).1 = .one (.error ⟨403, "Không có quyền xem yêu cầu này"⟩) ∧
    ∃ out, (outcome ((ApiCall.decide .approve 3 none).answer plainConfig (fun id => id) (some 7))
      (starting (asAlias 7 twoRequests) 0 fun _ => 0)).1 = .one (.ok out) := by
  refine ⟨fun h => ?_, rfl, _, rfl⟩
  have hplain := (agrees_get_iff (show _ = some superUser from rfl) rfl).mp h rfl rfl (pendingOf 8) rfl
  exact absurd hplain.own (by decide)

end AssetInventory.DfirRequests

import AssetInventory.Lib.Alone
import AssetInventory.Lib.PyUrl
import AssetInventory.Server.Auth

/-!
# Two authenticators

Most routes get their user from `get_current_user`.  The routes for notifications and for Telegram have a function of
their own for it, which takes the subject of the token as it is, and has no rule for passwords that must be changed.

* `decodeToken`, `getCurrentUser`, `currentUserDep`: the functions, down to the claims of the token.
* `getCurrentUser_refines`: tokens that are given by what they say are what `get_current_user` makes of them.
* `Agreement`: both accept the same user, and raise nothing that is not handled.
* `agreement_iff`: for which credentials they agree.
-/

namespace AssetInventory.Authenticators

open PyJson RowStore ReadCommitted Server

/-- How the texts of UUIDs are read. -/
structure UuidTexts where
  /-- `uuid.UUID(s)`; `none` is `ValueError`. -/
  python : String → Option Uuid
  /-- A text that is compared with a column of UUIDs; `none` is an error of the database. -/
  database : String → Option Uuid
  /-- The database takes nothing for a UUID that is none. -/
  python_of_database : ∀ s id, database s = some id → python s = some id

/-- The exceptions of these functions. -/
inductive PyException where
  | keyError | typeError | attributeError | valueError | databaseError
  deriving DecidableEq

/-- How a request ends without a user. -/
inductive Failure where
  | http (e : HttpError)
  /-- An exception that no handler catches. -/
  | unhandled (e : PyException)
  deriving DecidableEq

/-- The claims of a token. -/
abbrev Payload := List (String × Json)

section Functions

variable (texts : UuidTexts) (jwt : String → Option Payload)

/-- `decode_token(token, "access")`; `none` is `InvalidTokenError`, which `jwt.decode` may raise as well. -/
def decodeToken (token : String) : Option Payload :=
  (jwt token).bind fun payload => if lookup "type" payload = some (.str "access") then some payload else none

/-- `uuid.UUID(x)`. -/
def uuidUUID : Json → Except PyException Uuid
  | .str s => (texts.python s).elim (.error .valueError) .ok
  | .null => .error .typeError
  | _ => .error .attributeError

/-- `uuid.UUID(payload["sub"])`. -/
def subject (payload : Payload) : Except PyException Uuid :=
  (lookup "sub" payload).elim (.error .keyError) (uuidUUID texts)

def resolveUserFromToken (users : Table Uuid User) : Option String → Except Failure (Uuid × User)
  | none => .error (.http ⟨401, "Thiếu token"⟩)
  | some token =>
    match decodeToken jwt token with
    | none => .error (.http ⟨401, "Token không hợp lệ hoặc hết hạn"⟩)
    | some payload =>
      match subject texts payload with
      | .error .valueError => .error (.http ⟨401, "Token không hợp lệ hoặc hết hạn"⟩)
      | .error e => .error (.unhandled e)
      | .ok userId =>
        match (users.get userId).filter User.isActive with
        | none => .error (.http ⟨401, "User không tồn tại hoặc bị khóa"⟩)
        | some user => .ok (userId, user)

def getCurrentUser (users : Table Uuid User) (credentials : Option String) : Except Failure (Uuid × User) := do
  let (id, user) ← resolveUserFromToken texts jwt users credentials
  if user.mustChangePassword then .error (.http ⟨403, "PASSWORD_CHANGE_REQUIRED"⟩)
  else return (id, user)

/-- The id that a value is compared with: `null` is no id, and no row has it. -/
def comparedId : Json → Except PyException (Option Uuid)
  | .null => .ok none
  | .str s => (texts.database s).elim (.error .databaseError) fun id => .ok (some id)
  | _ => .error .databaseError

def currentUserDep (users : Table Uuid User) : Option String → Except Failure (Uuid × User)
  | none => .error (.http ⟨401, "Thiếu token"⟩)
  | some token =>
    match decodeToken jwt token with
    | none => .error (.http ⟨401, "Token không hợp lệ"⟩)
    | some payload =>
      match comparedId texts (getD payload "sub" .null) with
      | .error e => .error (.unhandled e)
      | .ok id =>
        match id.bind fun id => ((users.get id).filter User.isActive).map fun user => (id, user) with
        | none => .error (.http ⟨401, "User không tồn tại"⟩)
        | some found => .ok found

end Functions

section Equations

variable {texts : UuidTexts} {jwt : String → Option Payload} {users : Table Uuid User} {token : String}
  {payload : Payload}

theorem getCurrentUser_of_payload (h : decodeToken jwt token = some payload) :
    getCurrentUser texts jwt users (some token) = match subject texts payload with
      | .error .valueError => .error (.http ⟨401, "Token không hợp lệ hoặc hết hạn"⟩)
      | .error e => .error (.unhandled e)
      | .ok userId =>
        match (users.get userId).filter User.isActive with
        | none => .error (.http ⟨401, "User không tồn tại hoặc bị khóa"⟩)
        | some user => if user.mustChangePassword then .error (.http ⟨403, "PASSWORD_CHANGE_REQUIRED"⟩)
          else .ok (userId, user) := by
  unfold getCurrentUser resolveUserFromToken
  dsimp only
  rw [h]
  dsimp only
  cases subject texts payload with
  | error e => cases e <;> rfl
  | ok userId =>
    dsimp only
    cases (users.get userId).filter User.isActive with
    | none => rfl
    | some user => rfl

theorem getCurrentUser_of_invalid (texts : UuidTexts) (users : Table Uuid User) (h : decodeToken jwt token = none) :
    getCurrentUser texts jwt users (some token) = .error (.http ⟨401, "Token không hợp lệ hoặc hết hạn"⟩) := by
  unfold getCurrentUser resolveUserFromToken
  dsimp only
  rw [h]
  rfl

theorem currentUserDep_of_payload (h : decodeToken jwt token = some payload) :
    currentUserDep texts jwt users (some token) =
      match comparedId texts (getD payload "sub" .null) with
      | .error e => .error (.unhandled e)
      | .ok id =>
        match id.bind fun id => ((users.get id).filter User.isActive).map fun user => (id, user) with
        | none => .error (.http ⟨401, "User không tồn tại"⟩)
        | some found => .ok found := by
  unfold currentUserDep
  dsimp only
  rw [h]

theorem currentUserDep_of_invalid (texts : UuidTexts) (users : Table Uuid User) (h : decodeToken jwt token = none) :
    currentUserDep texts jwt users (some token) = .error (.http ⟨401, "Token không hợp lệ"⟩) := by
  unfold currentUserDep
  dsimp only
  rw [h]

end Equations

/-! ## Tokens by what they say -/

section Refines

variable {texts : UuidTexts} {jwt : String → Option Payload}

/-- What `get_current_user` finds in the credentials. -/
def credentialsOf (texts : UuidTexts) (jwt : String → Option Payload) : Option String → Credentials
  | none => .missing
  | some token =>
    match (decodeToken jwt token).bind fun payload => (subject texts payload).toOption with
    | none => .invalid
    | some id => .user id

/-- **`get_current_user` depends on the token by its subject only**, unless it raises an exception that is not
handled. -/
theorem getCurrentUser_refines {x : Alone Data DataWrite Env} (credentials : Option String)
    (h : ∀ e, getCurrentUser texts jwt x.view.users credentials ≠ .error (.unhandled e)) :
    getCurrentUser texts jwt x.view.users credentials =
      ((Server.getCurrentUser (credentialsOf texts jwt credentials)).alone x).1.mapError Failure.http := by
  cases credentials with
  | none => rfl
  | some token =>
    unfold credentialsOf
    dsimp only
    cases hpayload : decodeToken jwt token with
    | none => exact getCurrentUser_of_invalid texts _ hpayload
    | some payload =>
      rw [getCurrentUser_of_payload hpayload] at h ⊢
      rw [Option.bind_some]
      cases hsubject : subject texts payload with
      | error e =>
        rw [hsubject] at h
        cases e with
        | valueError => rfl
        | keyError => exact absurd rfl (h .keyError)
        | typeError => exact absurd rfl (h .typeError)
        | attributeError => exact absurd rfl (h .attributeError)
        | databaseError => exact absurd rfl (h .databaseError)
      | ok userId =>
        show _ = ((Server.getCurrentUser (.user userId)).alone x).1.mapError Failure.http
        rw [Server.getCurrentUser, Server.resolveUserFromToken, alone_bind, alone_select]
        dsimp only
        cases x.view.users.get userId with
        | none => rfl
        | some user =>
          dsimp only
          rw [Option.filter_some]
          by_cases hactive : user.isActive = true
          · rw [if_pos hactive, if_pos hactive]
            by_cases hchange : user.mustChangePassword = true
            · show (if _ then _ else _) = Except.mapError _ (Prog.alone (if _ then _ else _) x).1
              rw [if_pos hchange, if_pos hchange]
              rfl
            · show (if _ then _ else _) = Except.mapError _ (Prog.alone (if _ then _ else _) x).1
              rw [if_neg hchange, if_neg hchange]
              rfl
          · rw [if_neg hactive, if_neg hactive]
            rfl

end Refines

/-! ## Agreement -/

/-- Both accept the same user, and neither raises an exception that is not handled. -/
structure Agreement (texts : UuidTexts) (jwt : String → Option Payload) (users : Table Uuid User)
    (credentials : Option String) : Prop where
  same : ∀ found, getCurrentUser texts jwt users credentials = .ok found ↔
    currentUserDep texts jwt users credentials = .ok found
  current : ∀ e, getCurrentUser texts jwt users credentials ≠ .error (.unhandled e)
  dep : ∀ e, currentUserDep texts jwt users credentials ≠ .error (.unhandled e)

/-- The subject is a text that the database takes for a UUID, and the user with this id, if there is one who is
active, has no password to change. -/
def Regular (texts : UuidTexts) (users : Table Uuid User) (payload : Payload) : Prop :=
  ∃ s id, lookup "sub" payload = some (.str s) ∧ texts.database s = some id ∧
    ∀ user, users.get id = some user → user.isActive = true → user.mustChangePassword = false

section Agreement

variable {texts : UuidTexts} {jwt : String → Option Payload} {users : Table Uuid User} {token : String}
  {payload : Payload}

theorem functions_of_subject {s : String} {id : Uuid} (users : Table Uuid User)
    (hpayload : decodeToken jwt token = some payload)
    (hsub : lookup "sub" payload = some (.str s)) (hid : texts.database s = some id) :
    getCurrentUser texts jwt users (some token) = (match (users.get id).filter User.isActive with
        | none => .error (.http ⟨401, "User không tồn tại hoặc bị khóa"⟩)
        | some user => if user.mustChangePassword then .error (.http ⟨403, "PASSWORD_CHANGE_REQUIRED"⟩)
          else .ok (id, user)) ∧
      currentUserDep texts jwt users (some token) =
        match (users.get id).filter User.isActive with
        | none => .error (.http ⟨401, "User không tồn tại"⟩)
        | some user => .ok (id, user) := by
  have hsubject : subject texts payload = .ok id := by
    rw [subject, hsub, Option.elim_some, uuidUUID, texts.python_of_database s id hid, Option.elim_some]
  have hcompared : comparedId texts (getD payload "sub" .null) = .ok (some id) := by
    rw [getD, hsub, Option.getD_some, comparedId, hid, Option.elim_some]
  constructor
  · rw [getCurrentUser_of_payload hpayload, hsubject]
  · rw [currentUserDep_of_payload hpayload, hcompared]
    dsimp only
    rw [Option.bind_some]
    cases (users.get id).filter User.isActive with
    | none => rfl
    | some user => rfl

/-- **Regular tokens** are treated alike. -/
theorem agreement_of_regular (hpayload : decodeToken jwt token = some payload) (h : Regular texts users payload) :
    Agreement texts jwt users (some token) := by
  obtain ⟨s, id, hsub, hid, hchange⟩ := h
  obtain ⟨hcurrent, hdep⟩ := functions_of_subject users hpayload hsub hid
  cases hfound : (users.get id).filter User.isActive with
  | none =>
    rw [hfound] at hcurrent hdep
    exact ⟨fun found => by rw [hcurrent, hdep]; exact iff_of_false (nomatch ·) (nomatch ·),
      fun e => by rw [hcurrent]; exact (nomatch ·), fun e => by rw [hdep]; exact (nomatch ·)⟩
  | some user =>
    obtain ⟨hget, hactive⟩ := Option.filter_eq_some_iff.mp hfound
    rw [hfound] at hcurrent hdep
    dsimp only at hcurrent hdep
    rw [if_neg (Bool.eq_false_iff.mp (hchange user hget hactive))] at hcurrent
    exact ⟨fun found => by rw [hcurrent, hdep], fun e => by rw [hcurrent]; exact (nomatch ·),
      fun e => by rw [hdep]; exact (nomatch ·)⟩

/-- **What agreement takes.** -/
theorem regular_of_agreement (hpayload : decodeToken jwt token = some payload)
    (h : Agreement texts jwt users (some token)) : Regular texts users payload := by
  have hraise : ∀ e, subject texts payload = .error e → e = .valueError := by
    intro e hsubject
    by_contra hother
    refine h.current e ?_
    rw [getCurrentUser_of_payload hpayload, hsubject]
    cases e with
    | valueError => exact absurd rfl hother
    | _ => rfl
  have hcompare : ∀ e, comparedId texts (getD payload "sub" .null) ≠ .error e := by
    intro e hcompared
    refine h.dep e ?_
    rw [currentUserDep_of_payload hpayload, hcompared]
  cases hsub : lookup "sub" payload with
  | none =>
    have hkey := hraise .keyError (by rw [subject, hsub]; rfl)
    cases hkey
  | some sub =>
    have hsubject : subject texts payload = uuidUUID texts sub := by rw [subject, hsub]; rfl
    rw [hsubject] at hraise
    rw [getD, hsub, Option.getD_some] at hcompare
    cases sub with
    | str s =>
      cases hid : texts.database s with
      | none => exact absurd (by rw [comparedId, hid]; rfl) (hcompare .databaseError)
      | some id =>
        obtain ⟨hcurrent, hdep⟩ := functions_of_subject users hpayload hsub hid
        refine ⟨s, id, hsub, hid, fun user hget hactive => ?_⟩
        have hfound : (users.get id).filter User.isActive = some user :=
          Option.filter_eq_some_iff.mpr ⟨hget, hactive⟩
        rw [hfound] at hcurrent hdep
        have hsame := (h.same (id, user)).mpr hdep
        rw [hcurrent] at hsame
        dsimp only at hsame
        split at hsame
        · cases hsame
        · rename_i hchange
          exact Bool.eq_false_iff.mpr hchange
    | null => cases hraise .typeError rfl
    | bool b => cases hraise .attributeError rfl
    | num q => cases hraise .attributeError rfl
    | arr xs => cases hraise .attributeError rfl
    | obj kvs => cases hraise .attributeError rfl

/-- **For which credentials the authenticators agree**: those without a token that can be decoded, and those with a
regular one. -/
theorem agreement_iff (texts : UuidTexts) (jwt : String → Option Payload) (users : Table Uuid User)
    (credentials : Option String) : Agreement texts jwt users credentials ↔
      ∀ token ∈ credentials, ∀ payload ∈ decodeToken jwt token, Regular texts users payload := by
  cases credentials with
  | none =>
    refine iff_of_true ⟨fun found => iff_of_false (nomatch ·) (nomatch ·), fun e => (nomatch ·), fun e => (nomatch ·)⟩ ?_
    exact fun token htoken => absurd htoken (Option.not_mem_none token)
  | some token =>
    constructor
    · intro h token' htoken payload hpayload
      cases htoken
      exact regular_of_agreement hpayload h
    · intro h
      cases hpayload : decodeToken jwt token with
      | some payload => exact agreement_of_regular hpayload (h token rfl payload hpayload)
      | none =>
        have hcurrent := getCurrentUser_of_invalid texts users hpayload
        have hdep := currentUserDep_of_invalid texts users hpayload
        exact ⟨fun found => by rw [hcurrent, hdep]; exact iff_of_false (nomatch ·) (nomatch ·),
          fun e => by rw [hcurrent]; exact (nomatch ·), fun e => by rw [hdep]; exact (nomatch ·)⟩

end Agreement

/-! ## A password that must be changed -/

/-- UUIDs as they are usually written. -/
def plainTexts : UuidTexts := ⟨PyUrl.uuidOf, PyUrl.uuidOf, fun _ _ h => h⟩

/-- An account that has just been created. -/
def newUser : User where
  orgId := 1
  fullName := ""
  email := "user@example.gov.vn"
  phoneEncrypted := none
  role := .viewer
  passwordHash := some "hash"
  totpSecretEncrypted := none
  backupCodes := none
  is2faEnabled := false
  isActive := true
  lastLoginAt := none
  mustChangePassword := true
  totpLastCounter := none

/-- The claims of its token. -/
def newPayload : Payload :=
  [("sub", .str "00000000-0000-0000-0000-000000000007"), ("role", .str "viewer"), ("type", .str "access")]

/-- **One refuses an account whose password must be changed**, and the other accepts it. -/
theorem unchanged_accepted :
    getCurrentUser plainTexts (fun _ => some newPayload) (Table.empty.insert 7 newUser) (some "token") =
        .error (.http ⟨403, "PASSWORD_CHANGE_REQUIRED"⟩) ∧
      currentUserDep plainTexts (fun _ => some newPayload) (Table.empty.insert 7 newUser) (some "token") =
        .ok (7, newUser) ∧
      ¬Agreement plainTexts (fun _ => some newPayload) (Table.empty.insert 7 newUser) (some "token") := by
  have hpayload : decodeToken (fun _ => some newPayload) "token" = some newPayload := by decide +kernel
  have hsub : lookup "sub" newPayload = some (.str "00000000-0000-0000-0000-000000000007") := by decide +kernel
  have hid : plainTexts.database "00000000-0000-0000-0000-000000000007" = some 7 := by decide +kernel
  obtain ⟨hcurrent, hdep⟩ := functions_of_subject (Table.empty.insert 7 newUser) hpayload hsub hid
  refine ⟨hcurrent, hdep, fun h => ?_⟩
  have hsame := (h.same (7, newUser)).mpr hdep
  rw [hcurrent] at hsame
  cases hsame

/-- A token that cannot be read. -/
theorem getCurrentUser_refines_garbled : ∃ x : Alone Data DataWrite Env,
    getCurrentUser plainTexts (fun _ => none) x.view.users (some "token") =
      ((Server.getCurrentUser .invalid).alone x).1.mapError Failure.http :=
  ⟨⟨emptyData, [], 0, fun _ => exampleEnv⟩, getCurrentUser_refines (some "token") fun e h => by
    rw [getCurrentUser_of_invalid _ _ rfl] at h
    cases h⟩

end AssetInventory.Authenticators

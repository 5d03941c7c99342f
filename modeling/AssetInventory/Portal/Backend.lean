import AssetInventory.Lib.PyTime
import AssetInventory.Lib.Table

/-!
# The session of a browser in the portal

The browser holds a refresh token in a cookie, and the portal exchanges it when the access token has expired.
The server gives a new token for each exchange and revokes the old one; a token that is revoked already
revokes the whole family.  So a token may be exchanged once, and the new one has to get into the cookie.

Three paths exchange.  Requests that the portal passes on share an exchange that is under way, remember its
result for a minute, and set the cookie.  The look at the session shares and remembers too, and sets no
cookie.  The explicit refresh sets the cookie, and neither shares nor remembers.

* `State`: the browser, the portal and the server.
* `refreshTokens`, `finish`: the shared exchange, and the end of a request.
* `lookRow`, `rotate`, `refuseReplay`: an exchange on the server.
* `step`: what happens next; the requests and the exchanges go on in any order.

The user stays active, does not log out and changes no password, and the server can be reached.
-/

namespace AssetInventory.Portal

open PyTime RowStore

/-! ## The browser -/

/-- `TokenPair`; a refresh token is named by the number of its row. -/
structure TokenPair where
  access : ℕ
  refresh : ℕ
  deriving DecidableEq

/-- `ACCESS_COOKIE` and `REFRESH_COOKIE`. -/
structure Cookies where
  access : Option ℕ
  refresh : Option ℕ
  deriving DecidableEq

/-- What a response does to the cookies. -/
inductive SetCookie where
  | keep
  /-- `setSessionTokens`. -/
  | store (pair : TokenPair)
  /-- `clearSessionTokens`. -/
  | clear
  deriving DecidableEq

/-- The cookies after a response. -/
def Cookies.set (cookies : Cookies) : SetCookie → Cookies
  | .keep => cookies
  | .store pair => ⟨some pair.access, some pair.refresh⟩
  | .clear => ⟨none, none⟩

/-- The routes of the portal. -/
inductive Kind where
  /-- `proxyRequest`. -/
  | proxy
  /-- `/api/auth/session`, by `fetchJsonUpstream`. -/
  | session
  /-- `/api/auth/refresh`. -/
  | refresh
  deriving DecidableEq

/-- How far a request is. -/
inductive Stage where
  /-- On its way to the portal. -/
  | sent
  /-- The server has been called, with the access token of the cookie or of a new pair. -/
  | calling (newPair : Option TokenPair)
  /-- It awaits a shared exchange of this token. -/
  | waiting (refresh : ℕ)
  /-- It awaits an exchange of its own. -/
  | exchanging
  /-- The response is on its way to the browser. -/
  | responding (cookies : SetCookie)
  deriving DecidableEq

/-- A request that has not been answered, with the cookies that it was sent with. -/
structure Pending where
  kind : Kind
  cookies : Cookies
  stage : Stage
  deriving DecidableEq

/-! ## The server -/

/-- A row of `refresh_tokens`. -/
structure RefreshToken where
  familyId : ℕ
  expiresAt : Time
  revoked : Bool
  deriving DecidableEq

/-- Who awaits an exchange: the requests with this token, or one request. -/
inductive Caller where
  | shared (refresh : ℕ)
  | explicit (id : ℕ)
  deriving DecidableEq

/-- How far an exchange is. -/
inductive Call where
  | posted (refresh : ℕ)
  /-- The server has read the row, and goes on to rotate it. -/
  | rotating (refresh : ℕ)
  /-- The server has read that the row is revoked. -/
  | replayed (refresh : ℕ)
  /-- The answer is on its way to the portal. -/
  | answered (refresh : ℕ) (pair : Option TokenPair)
  deriving DecidableEq

/-- The token that is exchanged. -/
def Call.token : Call → ℕ
  | .posted r => r
  | .rotating r => r
  | .replayed r => r
  | .answered r _ => r

/-! ## The system -/

/-- An entry of `refreshCache`. -/
structure Cached where
  pair : TokenPair
  expiresAt : Time
  deriving DecidableEq

/-- The browser, the portal and the server. -/
structure State where
  now : Time
  cookies : Cookies
  /-- The requests that have not been answered. -/
  pending : Table ℕ Pending
  nextId : ℕ
  /-- `refreshCache`. -/
  cache : ℕ → Option Cached
  /-- The exchanges; the shared ones are `refreshInFlight`. -/
  calls : List (Caller × Call)
  rows : List RefreshToken
  /-- How often `auth.refresh_reuse_detected` has been audited. -/
  reuse : ℕ

/-- What happens next. -/
inductive Action where
  /-- The browser sends a request. -/
  | send (kind : Kind)
  /-- A request gets to the portal. -/
  | arrive (id : ℕ)
  /-- The server answers a request that is passed on; an access token may have expired at any time. -/
  | reply (id : ℕ) (unauthorized : Bool)
  /-- The server reads the row of a token that is exchanged. -/
  | look (caller : Caller)
  /-- The server commits an exchange. -/
  | commit (caller : Caller)
  /-- The answer to an exchange gets to the portal. -/
  | resolve (caller : Caller)
  /-- A response gets to the browser. -/
  | deliver (id : ℕ)
  | wait (time : ℕ)

/-- `REFRESH_CACHE_TTL_MS`. -/
def refreshCacheTtl : Time := seconds 60

namespace State

variable (s : State)

/-- The request is at this stage. -/
def at_ (id : ℕ) (stage : Stage) : State :=
  { s with pending := s.pending.modify id fun req => { req with stage := stage } }

/-- An exchange begins. -/
def post (caller : Caller) (refresh : ℕ) : State :=
  { s with calls := (caller, .posted refresh) :: s.calls }

/-- How far an exchange is. -/
def call (caller : Caller) : Option Call := s.calls.lookup caller

/-- An exchange goes on. -/
def proceed (caller : Caller) (call : Call) : State :=
  { s with calls := s.calls.map fun x => if x.1 = caller then (caller, call) else x }

/-- An exchange is over. -/
def finishCall (caller : Caller) : State :=
  { s with calls := s.calls.filter fun x => decide (x.1 ≠ caller) }

/-- The entry of a token that still counts. -/
def cached (refresh : ℕ) : Option Cached :=
  (s.cache refresh).filter fun entry => decide (s.now < entry.expiresAt)

/-- A new entry; the entries that have expired are removed. -/
def remember (refresh : ℕ) (pair : TokenPair) : State :=
  { s with cache := fun r =>
      (if r = refresh then some ⟨pair, s.now + refreshCacheTtl⟩ else s.cache r).filter fun entry =>
        decide (s.now < entry.expiresAt) }

/-- `refreshTokens`, for a request that awaits it. -/
def refreshTokens (id refresh : ℕ) : State :=
  match s.cached refresh with
  | some entry => s.at_ id (.calling (some entry.pair))
  | none =>
    if (s.call (.shared refresh)).isSome then s.at_ id (.waiting refresh)
    else (s.post (.shared refresh) refresh).at_ id (.waiting refresh)

end State

/-- The end of `proxyRequest` and of `fetchJsonUpstream`. -/
def finish (kind : Kind) (unauthorized : Bool) (newPair : Option TokenPair) : SetCookie :=
  match kind, newPair with
  | .proxy, some pair => .store pair
  | .proxy, none => if unauthorized then .clear else .keep
  | _, _ => .keep

/-- A request that awaits the shared exchange of a token goes on. -/
def Pending.resume (refresh : ℕ) (pair : Option TokenPair) (req : Pending) : Pending :=
  if req.stage = .waiting refresh then
    { req with stage := match pair with
        | some pair => .calling (some pair)
        | none => .responding (finish req.kind true none) }
  else req

def RefreshToken.revoke (row : RefreshToken) : RefreshToken := { row with revoked := true }

/-- `_revoke_refresh_family`. -/
def revokeFamily (familyId : ℕ) (rows : List RefreshToken) : List RefreshToken :=
  rows.map fun row => if row.familyId = familyId then row.revoke else row

section Step

variable (refreshTokenExpire : Time) (s : State)

/-- The server reads the row. -/
def lookRow (refresh : ℕ) : Call :=
  match s.rows[refresh]? with
  | none => .answered refresh none
  | some row =>
    if row.expiresAt ≤ s.now then .answered refresh none
    else if row.revoked then .replayed refresh
    else .rotating refresh

/-- The server rotates the row. -/
def rotate (caller : Caller) (refresh familyId : ℕ) : State :=
  let s' := s.proceed caller (.answered refresh (some ⟨s.rows.length, s.rows.length⟩))
  { s' with rows := s.rows.modify refresh RefreshToken.revoke ++
      [⟨familyId, s.now + refreshTokenExpire, false⟩] }

/-- The server revokes the family of the row. -/
def refuseReplay (caller : Caller) (refresh familyId : ℕ) : State :=
  let s' := s.proceed caller (.answered refresh none)
  { s' with rows := revokeFamily familyId s.rows, reuse := s.reuse + 1 }

/-- The answer to a shared exchange. -/
def resolveShared (refresh : ℕ) (pair : Option TokenPair) : State :=
  let s' := match pair with
    | some pair => (s.finishCall (.shared refresh)).remember refresh pair
    | none => s.finishCall (.shared refresh)
  { s' with pending := s.pending.mapRows (Pending.resume refresh pair) }

/-- **The steps.** -/
def step : Action → Option State
  | .send kind => some
      { s with pending := s.pending.insert s.nextId ⟨kind, s.cookies, .sent⟩, nextId := s.nextId + 1 }
  | .arrive id =>
    match s.pending.get id with
    | some ⟨.refresh, ⟨_, none⟩, .sent⟩ => some (s.at_ id (.responding .keep))
    | some ⟨.refresh, ⟨_, some refresh⟩, .sent⟩ =>
      some ((s.post (.explicit id) refresh).at_ id .exchanging)
    | some ⟨_, _, .sent⟩ => some (s.at_ id (.calling none))
    | _ => none
  | .reply id unauthorized =>
    match s.pending.get id with
    | some ⟨kind, cookies, .calling none⟩ =>
      match unauthorized, cookies.refresh with
      | true, some refresh => some (s.refreshTokens id refresh)
      | _, _ => some (s.at_ id (.responding (finish kind unauthorized none)))
    | some ⟨kind, _, .calling (some pair)⟩ =>
      some (s.at_ id (.responding (finish kind unauthorized (some pair))))
    | _ => none
  | .look caller =>
    match s.call caller with
    | some (.posted refresh) => some (s.proceed caller (lookRow s refresh))
    | _ => none
  | .commit caller =>
    match s.call caller with
    | some (.rotating refresh) =>
      (s.rows[refresh]?).map fun row => rotate refreshTokenExpire s caller refresh row.familyId
    | some (.replayed refresh) =>
      (s.rows[refresh]?).map fun row => refuseReplay s caller refresh row.familyId
    | _ => none
  | .resolve (.shared refresh) =>
    match s.call (.shared refresh) with
    | some (.answered _ pair) => some (resolveShared s refresh pair)
    | _ => none
  | .resolve (.explicit id) =>
    match s.call (.explicit id) with
    | some (.answered _ pair) =>
      some ((s.finishCall (.explicit id)).at_ id (.responding (pair.elim .keep .store)))
    | _ => none
  | .deliver id =>
    match s.pending.get id with
    | some ⟨_, _, .responding cookies⟩ => some
        { s with cookies := s.cookies.set cookies, pending := s.pending.erase id }
    | _ => none
  | .wait time => some { s with now := s.now + time }

/-- The state after a login. -/
def start (now : Time) : State where
  now := now
  cookies := ⟨some 0, some 0⟩
  pending := Table.empty
  nextId := 0
  cache := fun _ => none
  calls := []
  rows := [⟨0, now + refreshTokenExpire, false⟩]
  reuse := 0

end Step

end AssetInventory.Portal

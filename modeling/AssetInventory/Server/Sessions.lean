import AssetInventory.Lib.Noting
import AssetInventory.Lib.Numbers
import AssetInventory.Server.Rotation
import AssetInventory.Server.Users

/-!
# The end of a session

A logout ends the session of the refresh token that it presents, and a new password ends all sessions of
the user.  But a logout revokes the presented token only, which may have been exchanged for another one; a
new password revokes the tokens that its `UPDATE` sees; and an exchange writes the successor of a token
that was not revoked when it was read.

* `resetPassword`: the route of an administrator; `sessionRoute`: all routes, with what they announce.
* `Ending.Ends`: what the end of a session promises; `SessionsEnd`: that it does in all later states.
* `EndsReached`: the condition on a commit, that who ends sessions has reached every token of theirs, and
  that no exchange joins a family all of which is revoked.
* `sessions_end_of_runs`: sessions stay ended in every run whose commits meet the condition.
-/

namespace AssetInventory.Server

open PyTime Orm RowStore ReadCommitted Interleaving

/-! ## The routes -/

section Routes

variable (c : Crypto)

/-- `reset_password`.  The session has one object for a user, which is the administrator's if the two are
the same. -/
def resetPassword (userId : Uuid) (credentials : Credentials) (newPassword : String)
    (ip : Option String) : Handler (Except HttpError Unit) := do
  let admin ← requireRole superRoles "Không có quyền" credentials
  match admin with
  | .error e => return .error e
  | .ok (adminId, admin) =>
    let found ← .select fun data => data.users.get userId
    match found with
    | none => httpError 404 "Người dùng không tồn tại"
    | some row =>
      let user := if userId = adminId then admin else row
      let salt ← .fresh
      let cur :=
        { user with
          passwordHash := some (c.hashPassword salt newPassword)
          mustChangePassword := true }
      let found ← flushUser userId user cur
      if found then
        revokeUserRefreshTokens userId
        let _ ← appendAudit c.sha256 "user.reset_password" (some (toString adminId))
          (some (toString userId)) ip
        .publish []
        return .ok ()
      else serverError

end Routes

/-- What a commit announces of sessions. -/
inductive Ending where
  /-- What the route announces. -/
  | of (n : Note)
  /-- A logout that has presented the token with this hash. -/
  | loggedOut (tokenHash : ℕ)
  /-- A user has a new password. -/
  | passwordSet (user : Uuid)
  deriving DecidableEq

/-- The requests for tokens, and those that end sessions. -/
inductive SessionRequest where
  | auth (request : AuthRequest)
  | resetPassword (userId : Uuid) (credentials : Credentials) (newPassword : String)
      (ip : Option String)

/-- What the commits of a request announce. -/
def AuthRequest.endings : AuthRequest → List Note → List Ending
  | .logout _ (some tokenHash), _ => [.loggedOut tokenHash]
  | .changePassword (.user id) _ _, _ => [.passwordSet id]
  | _, note => note.map .of

/-- The program of a request, with what it announces. -/
def sessionRoute (c : Crypto) (settings : AuthSettings) :
    SessionRequest → Prog Data RowKey DataWrite Env Ending Unit
  | .auth request => (authRoute c settings request).noting request.endings
  | .resetPassword userId credentials newPassword ip =>
    (resetPassword c userId credentials newPassword ip >>= fun _ => pure ()).noting
      fun _ => [.passwordSet userId]

/-- The engine that runs the routes. -/
abbrev sessionStep (c : Crypto) (settings : AuthSettings) :
    Engine Data RowKey DataWrite Env Ending → Op SessionRequest Env →
      Option (Engine Data RowKey DataWrite Env Ending) :=
  Engine.step (sessionRoute c settings)

/-! ## What the end of a session promises -/

/-- The family has tokens. -/
def HasFamily (data : Data) (family : ℕ) : Prop :=
  ∃ id r, data.tokens.get id = some r ∧ r.familyId = family

/-- The family has tokens, and all are revoked. -/
structure Ended (data : Data) (family : Uuid) : Prop where
  has : HasFamily data family
  revoked : ∀ id r, data.tokens.get id = some r → r.familyId = family → r.revokedAt.isSome = true

/-- The families that a commit ends: that of the presented token; all families of the user. -/
def Ending.Ends (before after : Data) : Ending → Prop
  | .of _ => True
  | .loggedOut tokenHash => ∀ id r, before.tokens.get id = some r → r.tokenHash = tokenHash →
      Ended after r.familyId
  | .passwordSet user => ∀ family, HasFamily before family →
      (∀ id r, before.tokens.get id = some r → r.familyId = family → r.userId = user) →
        Ended after family

/-- **The end of a session is final**: what the next step announces of sessions is so in every later
state. -/
def SessionsEnd (c : Crypto) (settings : AuthSettings)
    (G : Engine Data RowKey DataWrite Env Ending → Op SessionRequest Env → Prop)
    (g : Engine Data RowKey DataWrite Env Ending) : Prop :=
  ∀ op g', G g op → sessionStep c settings g op = some g' →
    ∀ n ∈ g.announced op, ∀ g'', Runs (sessionStep c settings) G g' g'' →
      n.Ends g.store.data g''.store.data

/-! ## The condition -/

/-- The write revokes the token. -/
def DataWrite.revokes (id : Uuid) : DataWrite → Bool
  | .revoke k _ => decide (k = id)
  | _ => false

/-- Every token of a kind that is not revoked is one that the writes revoke. -/
def Reaches (data : Data) (pending : List DataWrite) (kind : RefreshToken → Bool) : Prop :=
  ∀ x ∈ data.tokens.rowsWhere fun r => kind r && r.revokedAt.isNone,
    pending.any (DataWrite.revokes x.1) = true

/-- Who ends sessions has reached all their tokens; an exchange has found its family alive. -/
def Ending.Reached (data : Data) (pending : List DataWrite) : Ending → Prop
  | .of (.exchanged tokenHash) =>
    ∀ x ∈ data.tokens.rowsWhere fun r => decide (r.tokenHash = tokenHash),
      data.tokens.rowsWhere (fun r =>
        decide (r.familyId = x.2.familyId) && r.revokedAt.isNone) ≠ []
  | .of _ => True
  | .loggedOut tokenHash =>
    ∀ x ∈ data.tokens.rowsWhere fun r => decide (r.tokenHash = tokenHash),
      Reaches data pending fun r => decide (r.familyId = x.2.familyId)
  | .passwordSet user => Reaches data pending fun r => decide (r.userId = user)

/-- **The condition on a commit**: a logout has reached every token of the family of the presented one that
is not revoked, a new password every such token of the user, and the family of a token that is exchanged
still has one that is not revoked. -/
def EndsReached (s : Store Data RowKey Ending) (pending : List DataWrite) (note : List Ending) : Prop :=
  ∀ n ∈ note, n.Reached s.data pending

instance (data : Data) (pending : List DataWrite) (kind : RefreshToken → Bool) :
    Decidable (Reaches data pending kind) := by
  unfold Reaches
  infer_instance

instance (data : Data) (pending : List DataWrite) : DecidablePred (Ending.Reached data pending)
  | .of n => by
    cases n with
    | exchanged tokenHash => unfold Ending.Reached; infer_instance
    | _ => exact isTrue trivial
  | .loggedOut tokenHash => by unfold Ending.Reached; infer_instance
  | .passwordSet user => by unfold Ending.Reached; infer_instance

instance (s : Store Data RowKey Ending) (pending : List DataWrite) (note : List Ending) :
    Decidable (EndsReached s pending note) := by
  unfold EndsReached
  infer_instance

/-! ## The law of a step -/

theorem HasFamily.applyAll {d : Data} {family : Uuid} (h : HasFamily d family) (ws : List DataWrite) :
    HasFamily (applyAll ws d) family := by
  obtain ⟨id, r, hr, hfamily⟩ := h
  obtain ⟨r', hr', hlater, -⟩ := later_applyAll ws hr
  exact ⟨id, r', hr', hlater.family.trans hfamily⟩

/-- A step keeps every token and every end of a session, and what it announces is so. -/
structure SessionLaw (x y : Data × List Ending) : Prop where
  kept : ∀ id r, x.1.tokens.get id = some r → ∃ r', y.1.tokens.get id = some r' ∧ r.Later r'
  ended : ∀ family, Ended x.1 family → Ended y.1 family
  announced : ∀ note, y.2 = note ++ x.2 → ∀ n ∈ note, n.Ends x.1 y.1

theorem SessionLaw.refl (x : Data × List Ending) : SessionLaw x x where
  kept id r hr := ⟨r, hr, RefreshToken.Later.refl r⟩
  ended _ h := h
  announced note hnote n hn := by
    rw [List.self_eq_append_left.mp hnote] at hn
    exact absurd hn List.not_mem_nil

/-- What a commit announces stays so while no session that has ended comes back. -/
theorem Ending.Ends.mono {d d' d'' : Data} {n : Ending} (h : n.Ends d d')
    (hended : ∀ family, Ended d' family → Ended d'' family) : n.Ends d d'' := by
  cases n with
  | of _ => trivial
  | loggedOut tokenHash => exact fun id r hr hhash => hended _ (h id r hr hhash)
  | passwordSet user => exact fun family hhas huser => hended _ (h family hhas huser)

namespace Sessions

/-- Families are numbers, and every step obeys the law. -/
def sessionDiscipline : Discipline Data RowKey DataWrite Ending :=
  numbering HasFamily SessionLaw SessionLaw.refl EndsReached

variable {p : TxId} {ws : List DataWrite} {s : Store Data RowKey Ending} {α : Type}

/-- The new tokens of a transaction are of new families, or of families that have a token which is not
revoked. -/
def Joins (p : TxId) (ws : List DataWrite) (s : Store Data RowKey Ending) : Prop :=
  ∀ id row, .token id row ∈ ws → Own HasFamily p row.familyId s ∨
    ∃ old r, s.data.tokens.get old = some r ∧ r.familyId = row.familyId ∧ r.revokedAt = none

/-- **No session comes back** by tokens of such families. -/
theorem Joins.ended (h : Joins p ws s) {family : Uuid} (hended : Ended s.data family) :
    Ended (applyAll ws s.data) family where
  has := hended.has.applyAll ws
  revoked id r' hr' hfamily := by
    rcases applyAll_cases hr' with ⟨r, hr, hlater, -⟩ | ⟨row, hrow, hlater⟩
    · exact hlater.revoked (hended.revoked id r hr (hlater.family.symm.trans hfamily))
    · have hrowFamily : row.familyId = family := hlater.family.symm.trans hfamily
      rcases h id row hrow with hown | ⟨old, r, hr, hjoin, hlive⟩
      · rw [hrowFamily] at hown
        exact absurd hended.has hown.unused
      · have hrevoked := hended.revoked old r hr (hjoin.trans hrowFamily)
        rw [hlive] at hrevoked
        cases hrevoked

/-- A family that has tokens after such a commit had some before, or is one of the transaction. -/
theorem Joins.family (h : Joins p ws s) {family : Uuid}
    (hhas : HasFamily (applyAll ws s.data) family) :
    HasFamily s.data family ∨ s.drawn[family]? = some p := by
  obtain ⟨id, r', hr', rfl⟩ := hhas
  rcases applyAll_cases hr' with ⟨r, hr, hlater, -⟩ | ⟨row, hrow, hlater⟩
  · exact Or.inl ⟨id, r, hr, hlater.family.symm⟩
  · rw [hlater.family]
    rcases h id row hrow with hown | ⟨old, r, hr, hjoin, -⟩
    · exact Or.inr hown.drawn
    · exact Or.inl ⟨old, r, hr, hjoin⟩

/-- **A commit** of such tokens, with ends of sessions that it has reached. -/
theorem session_publish (note : List Ending) (hinv : sessionDiscipline.Inv s) (hjoins : Joins p ws s)
    (hends : ∀ n ∈ note, n.Ends s.data (applyAll ws s.data)) :
    sessionDiscipline.Inv (s.publish p ws note) ∧
      sessionDiscipline.Guar p s (s.publish p ws note) := by
  refine numbering_publish hinv (fun family => hjoins.family) ⟨fun id r hr => ?_, ?_, ?_⟩
  · obtain ⟨r', hr', hlater, -⟩ := later_applyAll ws hr
    exact ⟨r', hr', hlater⟩
  · exact fun family => hjoins.ended
  · intro note' hnote'
    rw [← List.append_cancel_right hnote']
    exact hends

/-! ### Without a new token -/

theorem joins_of_noToken (hws : ∀ w ∈ ws, NoToken w) : Joins p ws s :=
  fun _ _ hrow => (hws _ hrow).elim

theorem revoke_mem {id : Uuid} (h : ws.any (DataWrite.revokes id) = true) :
    ∃ t, .revoke id t ∈ ws := by
  obtain ⟨w, hw, hrevokes⟩ := List.any_eq_true.mp h
  cases w with
  | revoke k t =>
    obtain rfl : k = id := of_decide_eq_true hrevokes
    exact ⟨t, hw⟩
  | _ => cases hrevokes

/-- **Who reaches all tokens of a kind** that are not revoked has revoked them all. -/
theorem revoked_of_reaches {d : Data} {kind : RefreshToken → Bool} (h : Reaches d ws kind) {id : Uuid}
    {r r' : RefreshToken} (hr : d.tokens.get id = some r) (hkind : kind r = true)
    (hr' : (applyAll ws d).tokens.get id = some r') : r'.revokedAt.isSome = true := by
  obtain ⟨r₁, hr₁, hlater, hrevoked, -⟩ := later_applyAll ws hr
  rw [hr'] at hr₁
  cases hr₁
  cases hlive : r.revokedAt with
  | some t => exact hlater.revoked (by rw [hlive]; rfl)
  | none =>
    refine hrevoked (revoke_mem (h (id, r) (Table.mem_rowsWhere.mpr ⟨hr, ?_⟩)))
    rw [hkind, hlive]
    rfl

/-- A family all of whose tokens are reached has ended, if no token is new. -/
theorem ended_of_reaches {d : Data} {family : Uuid} {kind : RefreshToken → Bool}
    (hws : ∀ w ∈ ws, NoToken w) (h : Reaches d ws kind) (hhas : HasFamily d family)
    (hkind : ∀ id r, d.tokens.get id = some r → r.familyId = family → kind r = true) :
    Ended (applyAll ws d) family where
  has := hhas.applyAll ws
  revoked id r' hr' hfamily := by
    rcases applyAll_cases hr' with ⟨r, hr, hlater, -⟩ | ⟨row, hrow, -⟩
    · have hk : kind r = true := hkind id r hr (hlater.family.symm.trans hfamily)
      exact revoked_of_reaches h hr hk hr'
    · exact (hws _ hrow).elim

/-- **The condition is enough** for a commit without a new token. -/
theorem ends_of_reached {d : Data} {n : Ending} (hws : ∀ w ∈ ws, NoToken w) (h : n.Reached d ws) :
    n.Ends d (applyAll ws d) := by
  cases n with
  | of _ => trivial
  | loggedOut tokenHash =>
    intro id r hr hhash
    have hreaches := h (id, r) (Table.mem_rowsWhere.mpr ⟨hr, decide_eq_true hhash⟩)
    exact ended_of_reaches hws hreaches ⟨id, r, hr, rfl⟩ fun _ _ _ hfamily => decide_eq_true hfamily
  | passwordSet user =>
    intro family hhas huser
    exact ended_of_reaches hws h hhas fun id r hr hfamily => decide_eq_true (huser id r hr hfamily)

theorem safe_of_noToken {B : List Ending → Prop} {C : α → Prop}
    {m : Prog Data RowKey DataWrite Env Ending α} (hm : m.Only NoToken B C)
    (hws : ∀ w ∈ ws, NoToken w) : m.Safe sessionDiscipline p anyEnd ws s := by
  refine (hm.safe_of_all ?_ hws).mono fun _ _ _ _ => trivial
  intro ws t note _ hinv hws hallowed
  exact session_publish note hinv (joins_of_noToken hws) fun n hn => ends_of_reached hws (hallowed n hn)

/-! ### A new token -/

section NewToken

variable {f : List Note → List Ending} {K : Store Data RowKey Ending → Prop}

theorem noting_noToken {β : Type} {m : Handler β} {k : β → Handler α} {C : β → Prop}
    {Q : α → List DataWrite → Store Data RowKey Ending → Prop}
    (hm : m.Only NoToken (fun _ => False) C) (hws : ∀ w ∈ ws, NoToken w)
    (hk : ∀ b ws t, (∀ w ∈ ws, NoToken w) → ((k b).noting f).Safe sessionDiscipline p Q ws t) :
    ((m >>= k).noting f).Safe sessionDiscipline p Q ws s := by
  refine (stable_of_pending _ p fun ws => ∀ w ∈ ws, NoToken w).noting_bind ?_ hm hws
    fun b ws t _ hws => hk b ws t hws
  intro ws _ w hw hws
  exact List.forall_mem_append.mpr ⟨hws, List.forall_mem_singleton.mpr hw⟩

/-- **`_issue_tokens`**: the token is of the given family, or of a new one. -/
theorem safe_issueTokens (settings : AuthSettings) (userId : Uuid) (user : User)
    (familyId : Option Uuid) (hK : Stable sessionDiscipline p fun _ s => K s) (h : K s) :
    ((issueTokens settings userId user familyId).noting f).Safe sessionDiscipline p
      (fun x ws' t => ws' = ws ∧ K t ∧ (familyId = none → Own HasFamily p x.2.familyId t) ∧
        ∀ family ∈ familyId, x.2.familyId = family) ws s := by
  refine noting_answer Env.now fun t₁ e₁ h₁ _ => ?_
  refine noting_answer Env.now fun t₂ e₂ h₂ _ => ?_
  refine noting_fresh fun t₃ h₃ _ => ?_
  have hK₃ : K (t₃.draw p) :=
    hK.draw [] _ (hK.rely [] _ _ h₃ (hK.rely [] _ _ h₂ (hK.rely [] _ _ h₁ h)))
  cases familyId with
  | some family =>
    refine noting_answer Env.now fun t₄ e₄ h₄ _ => noting_pure ?_
    refine ⟨rfl, hK.rely [] _ _ h₄ hK₃, fun hnone => ?_, fun _ hfamily => Option.some.inj hfamily⟩
    cases hnone
  | none =>
    refine noting_fresh fun t₄ h₄ hinv₄ => ?_
    refine noting_answer Env.now fun t₅ e₅ h₅ _ => noting_pure ?_
    have hown : Own HasFamily p t₄.drawn.length (t₄.draw p) := own_draw hinv₄
    refine ⟨rfl, hK.rely [] _ _ h₅ (hK.draw [] _ (hK.rely [] _ _ h₄ hK₃)),
      fun _ => (stable_own t₄.drawn.length).rely [] _ _ h₅ hown, fun _ hfamily => ?_⟩
    cases hfamily

/-- **The insert** of a token. -/
theorem safe_insertToken {row : RefreshToken} (hK : Stable sessionDiscipline p fun _ s => K s)
    (h : K s) : ((insertToken row).noting f).Safe sessionDiscipline p
      (fun _ ws' t => ∃ id, ws' = ws ++ [.token id row] ∧ K t) ws s := by
  refine noting_fresh fun t₁ h₁ _ => ?_
  refine noting_insert _ fun t₂ h₂ _ => noting_pure ⟨t₁.drawn.length, rfl, ?_⟩
  exact hK.rely [] _ _ h₂ (hK.draw [] _ (hK.rely [] _ _ h₁ h))

theorem joins_grant {id : Uuid} {row : RefreshToken} (hws : ∀ w ∈ ws, NoToken w)
    (hown : Own HasFamily p row.familyId s) : Joins p (ws ++ [.token id row]) s := by
  intro id' row' hrow
  rcases List.mem_append.mp hrow with hrow | hrow
  · exact (hws _ hrow).elim
  · cases List.mem_singleton.mp hrow
    exact Or.inl hown

/-- The end of a login and of a confirmation: an entry of the audit log, a token of a new family, and the
commit. -/
theorem safe_grant {β : Type} {c : Crypto} {settings : AuthSettings} {action : String}
    {actor target ip : Option String} {userId : Uuid} {user : User} {note : List Note}
    {k : LoginResponse → Handler β} (hws : ∀ w ∈ ws, NoToken w)
    (hnote : ∀ n ∈ f note, ∃ m, n = .of m)
    (hk : ∀ resp t, ((k resp).noting f).Safe sessionDiscipline p anyEnd [] t) :
    (Prog.noting f (do
      let _ ← appendAudit c.sha256 action actor target ip
      let (resp, token) ← issueTokens settings userId user none
      insertToken token
      Prog.publish note
      k resp : Handler β)).Safe sessionDiscipline p anyEnd ws s := by
  refine noting_noToken (only_appendAudit (fun _ => trivial) _ _ _ _ _) hws fun _ ws t hws => ?_
  refine noting_part (safe_issueTokens (K := fun _ => True) settings userId user none
    (stable_of_pending _ p fun _ => True) trivial) fun x ws' t₁ hx => ?_
  obtain ⟨rfl, -, hfamily, -⟩ := hx
  refine noting_part (safe_insertToken (K := fun t => Own HasFamily p x.2.familyId t)
    (stable_own _) (hfamily rfl)) fun _ ws'' t₂ hid => ?_
  obtain ⟨id, rfl, hown⟩ := hid
  refine noting_publish _ fun u htu hinv _ => ?_
  obtain ⟨hinv', hguar⟩ := session_publish (f note) hinv
    (joins_grant hws ((stable_own _).rely [] _ _ htu hown)) fun n hn => by
      obtain ⟨m, rfl⟩ := hnote n hn
      trivial
  exact ⟨hinv', hguar, hk _ _⟩

end NewToken

/-! ### The exchange -/

theorem stable_known (p : TxId) (id : Uuid) (row : RefreshToken) :
    Stable sessionDiscipline p fun _ s => Known id row s.data := by
  refine stable_law fun x y hlaw h => ?_
  obtain ⟨r, hr, hlater⟩ := h
  obtain ⟨r', hr', hlater'⟩ := hlaw.kept id r hr
  exact ⟨r', hr', hlater.trans hlater'⟩

/-- **The new token of an exchange** is of a family that is alive. -/
theorem joins_exchange {id newId : Uuid} {row new : RefreshToken} (hknown : Known id row s.data)
    (hnew : ∀ id' row', .token id' row' ∈ ws → id' = newId ∧ row' = new)
    (hfamily : new.familyId = row.familyId)
    (hreached : (Ending.of (.exchanged row.tokenHash)).Reached s.data ws) : Joins p ws s := by
  obtain ⟨r, hr, hlater⟩ := hknown
  intro id' row' hrow
  obtain ⟨rfl, rfl⟩ := hnew id' row' hrow
  have hlive := hreached (id, r) (Table.mem_rowsWhere.mpr ⟨hr, decide_eq_true hlater.hash⟩)
  obtain ⟨x, hx⟩ := List.exists_mem_of_ne_nil _ hlive
  obtain ⟨hxrow, hxlive⟩ := Table.mem_rowsWhere.mp (show (x.1, x.2) ∈ _ from hx)
  obtain ⟨hxfamily, hxnone⟩ := Bool.and_eq_true_iff.mp hxlive
  have hjoin : x.2.familyId = row'.familyId :=
    (of_decide_eq_true hxfamily).trans (hlater.family.trans hfamily.symm)
  exact Or.inr ⟨x.1, x.2, hxrow, hjoin, Option.isNone_iff_eq_none.mp hxnone⟩

theorem exists_of_mem {note : List Note} : ∀ n ∈ note.map Ending.of, ∃ m, n = .of m := by
  intro n hn
  obtain ⟨m, -, rfl⟩ := List.mem_map.mp hn
  exact ⟨m, rfl⟩

theorem safe_rotate (settings : AuthSettings) {id : Uuid} {row : RefreshToken} (userId : Uuid)
    (user : User) (hknown : Known id row s.data) :
    ((rotate settings id row userId user).noting (List.map .of)).Safe sessionDiscipline p anyEnd
    [] s := by
  refine noting_answer Env.now fun t₀ e₀ h₀ _ => ?_
  have hK := stable_known p id row
  refine noting_part (safe_issueTokens (K := fun s => Known id row s.data) settings userId user
    (some row.familyId) hK (hK.rely [] _ _ h₀ hknown)) fun x ws t₁ hx => ?_
  obtain ⟨rfl, hknown₁, -, hfamily⟩ := hx
  refine noting_update _ _ fun t₂ h₂ _ => ?_
  refine noting_part (safe_insertToken (K := fun s => Known id row s.data) hK
    (hK.lock [] _ _ (hK.rely [] _ _ h₂ hknown₁))) fun _ ws t₃ hnew => ?_
  obtain ⟨newId, rfl, hknown₃⟩ := hnew
  refine noting_select _ fun t₄ h₄ _ => ?_
  have hknown₄ := hK.rely [] _ _ h₄ hknown₃
  -- the commit, after the replacement has been noted if the new token was found
  have hcommit : ∀ ws t, (∀ id' row', .token id' row' ∈ ws → id' = newId ∧ row' = x.2) →
      Known id row t.data →
      (Prog.noting (List.map Ending.of) (Prog.publish [.exchanged row.tokenHash] >>= fun _ =>
        pure (.ok x.1) : Handler (Except HttpError LoginResponse))).Safe sessionDiscipline p anyEnd
        ws t := by
    intro ws t hnew hknown
    refine noting_publish _ fun u htu hinv hallowed => ?_
    have hreached := hallowed _ List.mem_cons_self
    obtain ⟨hinv', hguar⟩ := session_publish [.of (.exchanged row.tokenHash)] hinv
      (joins_exchange (hK.rely [] _ _ htu hknown) hnew (hfamily _ rfl) hreached) fun n hn => by
        rw [List.mem_singleton.mp hn]
        trivial
    exact ⟨hinv', hguar, noting_pure trivial⟩
  split
  · exact hcommit _ _ (fun id' row' h => by simpa using h) hknown₄
  · refine noting_update _ _ fun t₅ h₅ _ => ?_
    exact hcommit _ _ (fun id' row' h => by simpa using h)
      (hK.lock [] _ _ (hK.rely [] _ _ h₅ hknown₄))

theorem only_refuseReplay (c : Crypto) (row : RefreshToken) :
    (refuseReplay c row).Only NoToken (fun _ => True) fun _ => True :=
  (only_revokeRefreshFamily (fun _ _ => trivial) row.familyId).bind fun _ _ =>
    (only_appendAudit (fun _ => trivial) _ _ _ _ _).bind fun _ _ =>
      only_publish trivial (only_pure trivial)

theorem safe_refresh (c : Crypto) (settings : AuthSettings) (token : PresentedToken) :
    ((refresh c settings token).noting (List.map .of)).Safe sessionDiscipline p anyEnd [] s := by
  unfold refresh
  split
  · exact noting_pure trivial
  · rename_i userId _
    refine noting_select _ fun t₁ _ _ => ?_
    split
    · exact noting_pure trivial
    · rename_i id row hfound
      have hknown : Known id row t₁.data :=
        ⟨row, (Table.mem_rowsWhere.mp (List.mem_of_head? hfound)).1, RefreshToken.Later.refl row⟩
      have hK := stable_known p id row
      refine noting_answer Env.now fun t₂ e₂ h₂ _ => ?_
      split_ifs
      · exact noting_pure trivial
      · exact safe_of_noToken ((only_refuseReplay c row).noting _) (List.forall_mem_nil _)
      · refine noting_select _ fun t₃ h₃ _ => ?_
        split
        · exact noting_pure trivial
        · split_ifs
          · exact safe_rotate settings userId _ (hK.rely [] _ _ h₃ (hK.rely [] _ _ h₂ hknown))
          · exact noting_pure trivial

/-! ### The other routes -/

theorem safe_completeLogin (c : Crypto) (settings : AuthSettings) (id : Uuid) (user : User)
    (factor : Option Factor) (ip : Option String) :
    ((completeLogin c settings id user factor ip).noting (List.map .of)).Safe sessionDiscipline p
      anyEnd [] s := by
  refine noting_answer Env.now fun t₁ e₁ h₁ _ => ?_
  refine noting_noToken (only_flushUser trivial) (List.forall_mem_nil _) fun found ws t hws => ?_
  cases found with
  | false => exact noting_pure trivial
  | true =>
    exact safe_grant (k := fun resp => pure (Except.ok resp)) hws exists_of_mem
      fun _ _ => noting_pure trivial

theorem safe_login (c : Crypto) (settings : AuthSettings) (body : LoginRequest) :
    ((login c settings body).noting (List.map .of)).Safe sessionDiscipline p anyEnd [] s := by
  have hrefuse : ∀ action actor detail t,
      ((refuseLogin c action actor body.ip detail).noting (List.map Ending.of)).Safe sessionDiscipline p
        anyEnd [] t := by
    intro action actor detail t
    have honly := only_refuseLogin (A := NoToken) (B := fun _ => True) (fun _ => trivial) trivial c
      action actor body.ip detail
    exact safe_of_noToken (honly.noting _) (List.forall_mem_nil _)
  refine noting_select _ fun t₀ _ _ => ?_
  refine noting_answer _ fun t₁ e h₁ _ => ?_
  split
  · exact hrefuse _ _ _ _
  · split_ifs
    · exact hrefuse _ _ _ _
    · exact hrefuse _ _ _ _
    · refine noting_answer Env.now fun t₂ e₂ h₂ _ => ?_
      split
      · exact noting_pure trivial
      · exact hrefuse _ _ _ _
      · exact safe_completeLogin c settings _ _ _ _
    · exact noting_pure trivial
    · exact safe_completeLogin c settings _ _ _ _

theorem safe_totpConfirm (c : Crypto) (settings : AuthSettings) (credentials : Credentials)
    (code : String) :
    ((totpConfirm c settings credentials code).noting (List.map .of)).Safe sessionDiscipline p anyEnd
      [] s := by
  refine noting_noToken (only_getCurrentUser credentials) (List.forall_mem_nil _)
    fun r ws t hws => ?_
  cases r with
  | error e => exact noting_pure trivial
  | ok x =>
    dsimp only
    split
    · split
      · exact noting_pure trivial
      · refine noting_answer Env.now ?_
        intro t₁ e₁ h₁ _
        split
        · exact noting_pure trivial
        · exact noting_pure trivial
        · refine noting_noToken (only_flushUser trivial) hws fun found ws t hws => ?_
          cases found with
          | false => exact noting_pure trivial
          | true =>
            exact safe_grant (k := fun resp => pure (Except.ok resp)) hws exists_of_mem
              fun _ _ => noting_pure trivial
    · exact noting_pure trivial

theorem only_resetPassword (c : Crypto) (userId : Uuid) (credentials : Credentials)
    (newPassword : String) (ip : Option String) :
    (resetPassword c userId credentials newPassword ip).Only NoToken (fun _ => True)
      fun _ => True := by
  refine (only_requireRole _ _ _).bind fun r _ => ?_
  cases r with
  | error e => exact only_pure trivial
  | ok x =>
    refine only_select _ fun found => ?_
    cases found with
    | none => exact only_pure trivial
    | some row =>
      refine only_fresh fun salt => (only_flushUser trivial).bind fun found _ => ?_
      cases found with
      | false => exact only_pure trivial
      | true =>
        exact (only_revokeUserRefreshTokens (fun _ _ => trivial) _).bind fun _ _ =>
          (only_appendAudit (fun _ => trivial) _ _ _ _ _).bind fun _ _ =>
            only_publish trivial (only_pure trivial)

/-- **Every route** obeys the law. -/
theorem safe_sessionRoute (c : Crypto) (settings : AuthSettings) (request : SessionRequest) :
    (sessionRoute c settings request).Safe sessionDiscipline p anyEnd [] s := by
  cases request with
  | auth request =>
    cases request with
    | login body => exact noting_part (safe_login c settings body) fun _ _ _ _ => noting_pure trivial
    | refresh token =>
      exact noting_part (safe_refresh c settings token) fun _ _ _ _ => noting_pure trivial
    | totpConfirm credentials code =>
      exact noting_part (safe_totpConfirm c settings credentials code) fun _ _ _ _ =>
        noting_pure trivial
    | logout credentials tokenHash =>
      have honly := only_logout (A := NoToken) (B := fun _ => True) (fun _ => trivial)
        (fun _ _ => trivial) trivial c credentials tokenHash
      exact noting_part (safe_of_noToken (honly.noting _) (List.forall_mem_nil _)) fun _ _ _ _ =>
        noting_pure trivial
    | changePassword credentials current new =>
      have honly := only_changePassword (A := NoToken) (B := fun _ => True) (fun _ => trivial)
        (fun _ _ => trivial) (fun _ _ _ => trivial) trivial c credentials current new
      exact noting_part (safe_of_noToken (honly.noting _) (List.forall_mem_nil _)) fun _ _ _ _ =>
        noting_pure trivial
  | resetPassword userId credentials newPassword ip =>
    have honly := only_resetPassword c userId credentials newPassword ip
    exact noting_part (safe_of_noToken (honly.noting _) (List.forall_mem_nil _)) fun _ _ _ _ =>
      noting_pure trivial

end Sessions

/-! ## Runs -/

/-- One user, and nobody is logged in. -/
def noSessions : Store Data RowKey Ending := ⟨oneUser.data, fun _ => none, [], []⟩

/-- The logout of the user `0` with a refresh token. -/
def exampleLogout (tokenHash : ℕ) : SessionRequest := .auth (.logout (.user 0) (some tokenHash))

/-- The next statement of the client. -/
def exampleNext : Op SessionRequest Env := .run 0 exampleEnv

theorem hasFamily_noSessions (family : ℕ) (h : HasFamily noSessions.data family) :
    family < noSessions.drawn.length := by
  obtain ⟨id, r, hr, -⟩ := h
  cases hr

end AssetInventory.Server

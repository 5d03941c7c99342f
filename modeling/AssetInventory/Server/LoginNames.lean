import AssetInventory.Server.Auth
import AssetInventory.Lib.Alone

/-!
# Who logs in

What is typed at the login stands for up to five addresses: itself, itself as the name of a mailbox under
two domains, and under both again the name that it resolves to.  A query asks for the users with one of these
addresses, and the login goes on with the first one that the database returns.

* `resolveLoginUsername`, `loginCandidates`: the name and the addresses.
* `loginAs`: the login from the user on; `checks_iff_login`: with whom it can go on.
* `ReachesTyped`: what is expected of it.
* `reachesTyped_iff`: that holds if and only if at most one user has one of the addresses.
-/

namespace AssetInventory.Server

open PyJson PyTime RowStore ReadCommitted

/-! ## Names -/

/-- What Python knows of Unicode. -/
structure UnicodeData where
  lower : String → String
  /-- `unicodedata.normalize("NFKD", s)`. -/
  nfkd : List Char → List Char
  /-- `unicodedata.combining`, as a truth value. -/
  combining : Char → Bool

def usernameAliases : List (String × String) :=
  [("khoahoccongnghe", "skhcn"), ("khoahocvacongnghe", "skhcn"), ("sokhcn", "skhcn"), ("noivu", "snv"),
    ("sonoivu", "snv"), ("thanhtra", "thanhtratinh"), ("taichinh", "stc"), ("sotaichinh", "stc"),
    ("xaydung", "sxd"), ("soxaydung", "sxd"), ("nongnghiepmoitruong", "snnmt"),
    ("nongnghiepvamoitruong", "snnmt"), ("sonnmt", "snnmt"), ("tuphap", "stp"), ("sotuphap", "stp"),
    ("ngoaivu", "sngv"), ("songoaivu", "sngv"), ("giaoducdaotao", "sgddt"), ("giaoducvadaotao", "sgddt"),
    ("sogddt", "sgddt"), ("congthuong", "sct"), ("socongthuong", "sct"), ("vanhoathethaodulich", "svhttdl"),
    ("vanhoathethaovadulich", "svhttdl"), ("sovhttdl", "svhttdl"), ("yte", "syt"), ("soyte", "syt"),
    ("vanphongubnd", "vpubnd"), ("vanphongubndtinh", "vpubnd"), ("thanhsen", "phuongthanhsen"),
    ("tranphu", "phuongtranphu"), ("hahuytap", "phuonghahuytap"), ("vungang", "phuongvungang"),
    ("songtri", "phuongsongtri"), ("hoanhson", "phuonghoanhson"), ("haininh", "phuonghaininh"),
    ("bachonglinh", "phuongbachonglinh"), ("namhonglinh", "phuongnamhonglinh")]

section Names

variable (U : UnicodeData)

def removeVietnameseAccents (s : String) : String :=
  String.ofList ((U.nfkd (replace "Đ" "D" (replace "đ" "d" s)).toList).filter fun c => !U.combining c)

/-- `re.sub(r"[^a-z0-9]+", "", s)`. -/
def keepAlphanumeric (s : String) : String :=
  String.ofList (s.toList.filter fun c => decide ('a' ≤ c ∧ c ≤ 'z') || decide ('0' ≤ c ∧ c ≤ '9'))

def resolveLoginUsername (loginInput : String) : String :=
  let raw := U.lower (strip loginInput)
  let raw := if '@' ∈ raw.toList then (split '@' raw).headD "" else raw
  let clean := keepAlphanumeric (removeVietnameseAccents U raw)
  let clean := if startsWith "ubndxa" clean ∧ 6 < clean.length then dropPrefix "ubndxa" clean else clean
  (usernameAliases.lookup clean).getD clean

def loginId (email : String) : String := U.lower (strip email)

/-- `candidates`. -/
def loginCandidates (email : String) : List String :=
  let id := loginId U email
  let resolved := resolveLoginUsername U id
  [id, id ++ "@hatinh.gov.vn", id ++ "@example.gov.vn", resolved ++ "@hatinh.gov.vn",
    resolved ++ "@example.gov.vn"]

/-- The fields of the request. -/
structure LoginForm where
  email : String
  password : String
  totpCode : Option String
  ip : Option String

/-- The request with the addresses that it asks for. -/
def LoginForm.request (form : LoginForm) : LoginRequest :=
  ⟨loginCandidates U form.email, form.password, form.totpCode, form.ip⟩

end Names

/-! ## The first user -/

/-- The users with one of these addresses. -/
def usersAmong (users : Table Uuid User) (candidates : List String) : List (Uuid × User) :=
  users.rowsWhere fun u => decide (u.email ∈ candidates)

section Login

variable (c : Crypto) (settings : AuthSettings)

/-- `login` from the user on: it is this user's password that is checked. -/
def loginAs (body : LoginRequest) : Option (Uuid × User) → Handler (Except HttpError LoginResponse)
  | none => refuseLogin c "auth.login_failed" none body.ip "Sai email hoặc mật khẩu"
  | some (id, user) =>
    if truthy user.passwordHash = false ∨
        c.verifyPassword body.password (user.passwordHash.getD "") = false then
      refuseLogin c "auth.login_failed" (some id) body.ip "Sai email hoặc mật khẩu"
    else if user.isActive = false then
      refuseLogin c "auth.login_blocked" (some id) body.ip "Tài khoản đã bị khóa"
    else if user.is2faEnabled then
      if truthy body.totpCode then do
        let t ← now
        match acceptFactor c user (body.totpCode.getD "") (t / 1000000) with
        | .error _ => serverError
        | .ok none => refuseLogin c "auth.totp_failed" (some id) body.ip "Mã 2FA không đúng"
        | .ok (some factor) => completeLogin c settings id user (some factor) body.ip
      else return .ok ⟨none, none, true, false⟩
    else completeLogin c settings id user none body.ip

theorem login_eq (body : LoginRequest) :
    login c settings body = (do
      let matching ← .select fun data => usersAmong data.users body.candidates
      let first ← .answer Env.first
      loginAs c settings body (matching[first % matching.length]?)) := by
  unfold login
  refine congrArg _ (funext fun matching => congrArg _ (funext fun first => ?_))
  cases matching[first % matching.length]? with
  | none => rfl
  | some _ => rfl

theorem alone_login (body : LoginRequest) (x : Alone Data DataWrite Env) :
    (login c settings body).alone x =
      (loginAs c settings body ((usersAmong x.view.users body.candidates)[(x.answers 0).first %
        (usersAmong x.view.users body.candidates).length]?)).alone
          { x with answers := fun i => x.answers (i + 1) } := by
  rw [login_eq, alone_select, alone_answer]

end Login

/-! ## Who is reached -/

section Reached

variable {U : UnicodeData} {users : Table Uuid User} {typed : String}

/-- The user with whom a login goes on: the first one, in some order of those that the query returns. -/
def Checks (U : UnicodeData) (users : Table Uuid User) (typed : String) (checked : Option (Uuid × User)) :
    Prop :=
  ∃ rows : List (Uuid × User), rows.Perm (usersAmong users (loginCandidates U typed)) ∧ rows.head? = checked

/-- **The login goes on with one of them**, and with each of them for some choice of the first row. -/
theorem checks_iff_first {checked : Option (Uuid × User)} :
    Checks U users typed checked ↔ ∃ first : ℕ, (usersAmong users (loginCandidates U typed))[first %
      (usersAmong users (loginCandidates U typed)).length]? = checked := by
  set matching := usersAmong users (loginCandidates U typed) with hmatching
  constructor
  · rintro ⟨rows, hperm, rfl⟩
    rw [← hmatching] at hperm
    cases rows with
    | nil =>
      rw [hperm.nil_eq.symm]
      exact ⟨0, rfl⟩
    | cons p rows =>
      obtain ⟨i, hi, hp⟩ := List.mem_iff_getElem.mp (hperm.subset List.mem_cons_self)
      exact ⟨i, by rw [Nat.mod_eq_of_lt hi, List.getElem?_eq_getElem hi, hp, List.head?_cons]⟩
  · rintro ⟨first, rfl⟩
    by_cases hempty : matching.length = 0
    · exact ⟨matching, List.Perm.refl _, by simp [List.length_eq_zero_iff.mp hempty]⟩
    · have hi : first % matching.length < matching.length := Nat.mod_lt _ (Nat.pos_of_ne_zero hempty)
      refine ⟨_, (List.perm_cons_erase (List.getElem_mem hi)).symm, ?_⟩
      rw [List.getElem?_eq_getElem hi, List.head?_cons]

/-- **What is expected**: the user whose address was typed is the one that is checked, and the order of the
rows makes no difference. -/
structure ReachesTyped (U : UnicodeData) (users : Table Uuid User) (typed : String) : Prop where
  reached : ∀ id user, users.get id = some user → user.email = loginId U typed →
    ∀ checked, Checks U users typed checked → checked = some (id, user)
  unordered : ∀ checked checked', Checks U users typed checked → Checks U users typed checked' →
    checked = checked'

/-- No two users have addresses among those that are asked for. -/
def OneCandidate (U : UnicodeData) (users : Table Uuid User) (typed : String) : Prop :=
  ∀ id id' user user', users.get id = some user → users.get id' = some user' →
    user.email ∈ loginCandidates U typed → user'.email ∈ loginCandidates U typed → id = id'

theorem mem_usersAmong {candidates : List String} {p : Uuid × User} :
    p ∈ usersAmong users candidates ↔ users.get p.1 = some p.2 ∧ p.2.email ∈ candidates := by
  rw [usersAmong, Table.mem_rowsWhere, decide_eq_true_iff]

theorem checks_of_mem {p : Uuid × User} (h : p ∈ usersAmong users (loginCandidates U typed)) :
    Checks U users typed (some p) :=
  ⟨_, (List.perm_cons_erase h).symm, List.head?_cons⟩

theorem Checks.cases {checked : Option (Uuid × User)} (h : Checks U users typed checked) :
    (∃ p ∈ usersAmong users (loginCandidates U typed), checked = some p) ∨
      checked = none ∧ usersAmong users (loginCandidates U typed) = [] := by
  obtain ⟨rows, hperm, rfl⟩ := h
  cases rows with
  | nil => exact .inr ⟨rfl, hperm.nil_eq.symm⟩
  | cons p rows => exact .inl ⟨p, hperm.subset List.mem_cons_self, List.head?_cons⟩

/-- **When the typed user is reached.** -/
theorem reachesTyped_iff : ReachesTyped U users typed ↔ OneCandidate U users typed := by
  constructor
  · intro h id id' user user' hget hget' hemail hemail'
    have hchecks : Checks U users typed (some (id, user)) :=
      checks_of_mem (mem_usersAmong.mpr ⟨hget, hemail⟩)
    have hchecks' : Checks U users typed (some (id', user')) :=
      checks_of_mem (mem_usersAmong.mpr ⟨hget', hemail'⟩)
    exact congrArg Prod.fst (Option.some.inj (h.unordered _ _ hchecks hchecks'))
  · intro hone
    have hsame : ∀ p ∈ usersAmong users (loginCandidates U typed),
        ∀ q ∈ usersAmong users (loginCandidates U typed), p = q := by
      intro p hp q hq
      obtain ⟨hp, hpemail⟩ := mem_usersAmong.mp hp
      obtain ⟨hq, hqemail⟩ := mem_usersAmong.mp hq
      have hid : p.1 = q.1 := hone _ _ _ _ hp hq hpemail hqemail
      rw [hid, hq] at hp
      exact Prod.ext hid (Option.some.inj hp).symm
    constructor
    · intro id user hget hemail checked hchecked
      have hmem : (id, user) ∈ usersAmong users (loginCandidates U typed) :=
        mem_usersAmong.mpr ⟨hget, by rw [hemail]; exact List.mem_cons_self⟩
      rcases hchecked.cases with ⟨p, hp, rfl⟩ | ⟨-, hempty⟩
      · rw [hsame p hp _ hmem]
      · rw [hempty] at hmem
        cases hmem
    · intro checked checked' hchecked hchecked'
      rcases hchecked.cases with ⟨p, hp, rfl⟩ | ⟨rfl, hempty⟩
      · rcases hchecked'.cases with ⟨q, hq, rfl⟩ | ⟨-, hempty⟩
        · rw [hsame p hp q hq]
        · rw [hempty] at hp
          cases hp
      · rcases hchecked'.cases with ⟨q, hq, -⟩ | ⟨rfl, -⟩
        · rw [hempty] at hq
          cases hq
        · rfl

end Reached

/-! ## The same name under two domains -/

/-- Unicode as far as ASCII goes. -/
def asciiData : UnicodeData := ⟨String.toLower, id, fun _ => false⟩

/-- A user with this address. -/
def userWith (email : String) : User where
  orgId := 0
  fullName := ""
  email := email
  phoneEncrypted := none
  role := .orgAdmin
  passwordHash := some "hash"
  totpSecretEncrypted := none
  backupCodes := none
  is2faEnabled := false
  isActive := true
  lastLoginAt := none
  mustChangePassword := false
  totpLastCounter := none

/-- The first administrator, and another of that name. -/
def twoDomains : Table Uuid User :=
  (Table.empty.insert 0 (userWith "admin@example.gov.vn")).insert 1 (userWith "admin@hatinh.gov.vn")

/-- **Another account may be checked** than the one whose address was typed. -/
theorem typed_account_missed : ¬ ∀ (U : UnicodeData) (users : Table Uuid User),
      (∀ id id' user user', users.get id = some user → users.get id' = some user' →
        user.email = user'.email → id = id') → ∀ typed, ReachesTyped U users typed := by
  intro h
  have hdistinct : ∀ id id' user user', twoDomains.get id = some user → twoDomains.get id' = some user' →
      user.email = user'.email → id = id' := by
    have hcases : ∀ id user, twoDomains.get id = some user →
        id = 1 ∧ user = userWith "admin@hatinh.gov.vn" ∨ id = 0 ∧ user = userWith "admin@example.gov.vn" := by
      intro id user hget
      rcases Table.get_insert_cases hget with ⟨hid, huser, -⟩ | hget
      · exact .inl ⟨hid, huser⟩
      · rcases Table.get_insert_cases hget with ⟨hid, huser, -⟩ | hnone
        · exact .inr ⟨hid, huser⟩
        · cases hnone
    intro id id' user user' hget hget' hemail
    rcases hcases id user hget with ⟨rfl, rfl⟩ | ⟨rfl, rfl⟩ <;>
      rcases hcases id' user' hget' with ⟨rfl, rfl⟩ | ⟨rfl, rfl⟩
    · rfl
    · exact absurd hemail (by decide)
    · exact absurd hemail (by decide)
    · rfl
  have hreaches := h asciiData twoDomains hdistinct "admin@example.gov.vn"
  have hother : (1, userWith "admin@hatinh.gov.vn") ∈
      usersAmong twoDomains (loginCandidates asciiData "admin@example.gov.vn") :=
    mem_usersAmong.mpr ⟨rfl, by decide +kernel⟩
  have hchecked := hreaches.reached 0 (userWith "admin@example.gov.vn") rfl (by decide +kernel) _
    (checks_of_mem hother)
  cases hchecked

end AssetInventory.Server

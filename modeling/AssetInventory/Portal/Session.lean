import AssetInventory.Lib.Run
import AssetInventory.Portal.Backend

/-!
# A session that is kept

The portal keeps the session of the browser as long as it sends each token to the server once, every new pair
gets to a request that puts it into the cookie, and the responses come in the order of the tokens.  An
explicit refresh besides another request, a request that asks again after a minute, a look at the session
and a late response each break one of these.

* `Lasting`, `Orderly`: the runs in question, and the condition on their steps.
* `Chain`: only the newest token is not revoked, at most one exchange is under way, and the newest token that
  has left the server is in the cookie or on its way there.
* `Chain.step`: every step that meets the condition keeps the chain.
* `session_kept_of_runs`: in every run of such steps the session is kept.
* `session_lost_by_look`: a look at the session that leaves the browser with a revoked token.
-/

namespace AssetInventory.Portal

open PyTime RowStore Interleaving

/-! ## The condition -/

/-- **The session is kept**: no token has been replayed, and a browser that awaits no response holds a
refresh token that is not revoked. -/
def Kept (s : State) : Prop :=
  s.reuse = 0 ∧ (s.pending.keys = [] → ∃ r row, s.cookies.refresh = some r ∧
    s.rows[r]? = some row ∧ row.revoked = false)

/-- The session has not expired when a token is exchanged. -/
def lasting (s : State) : Action → Bool
  | .look caller =>
    match s.call caller with
    | some (.posted refresh) => (s.rows[refresh]?).all fun row => decide (s.now < row.expiresAt)
    | _ => true
  | _ => true

/-- The runs in question. -/
def Lasting (s : State) (a : Action) : Prop := lasting s a = true

/-- The token that a step sends to the server: that of an explicit refresh, or of a request that finds
neither an entry that counts nor an exchange under way. -/
def begins (s : State) : Action → Option ℕ
  | .arrive id =>
    match s.pending.get id with
    | some ⟨.refresh, ⟨_, refresh⟩, .sent⟩ => refresh
    | _ => none
  | .reply id true =>
    match s.pending.get id with
    | some ⟨_, ⟨_, some refresh⟩, .calling none⟩ =>
      if (s.cached refresh).isNone ∧ (s.call (.shared refresh)).isNone then some refresh else none
    | _ => none
  | _ => none

/-- The token has not been sent to the server before. -/
def untouched (s : State) (refresh : ℕ) : Bool :=
  (s.rows[refresh]?).all (fun row => !row.revoked) &&
    s.calls.all fun x => decide (x.2.token ≠ refresh)

/-- One of the requests that get the new pair puts it into the cookie. -/
def stored (s : State) : Action → Bool
  | .resolve (.shared refresh) =>
    match s.call (.shared refresh) with
    | some (.answered _ (some _)) =>
      s.pending.rows.any fun req => decide (req.kind = .proxy) && decide (req.stage = .waiting refresh)
    | _ => true
  | _ => true

/-- A response does not put an older token into the cookie. -/
def inOrder (s : State) : Action → Bool
  | .deliver id =>
    match s.pending.get id with
    | some ⟨_, _, .responding (.store pair)⟩ => s.cookies.refresh.all fun r => decide (r ≤ pair.refresh)
    | _ => true
  | _ => true

/-- **The condition.**  A token is sent to the server once; what comes of a shared exchange goes to a request
that is passed on, not to looks at the session alone; and the responses put the tokens into the cookie in
the order in which they were issued. -/
structure Orderly (s : State) (a : Action) : Prop where
  lasting : Lasting s a
  once : (begins s a).all (untouched s) = true
  stored : stored s a = true
  inOrder : inOrder s a = true

instance (s : State) (a : Action) : Decidable (Lasting s a) := inferInstanceAs (Decidable (_ = true))

instance (s : State) (a : Action) : Decidable (Orderly s a) :=
  decidable_of_iff (lasting s a = true ∧ (begins s a).all (untouched s) = true ∧ stored s a = true ∧
      inOrder s a = true)
    ⟨fun ⟨hl, ho, hs, hi⟩ => ⟨hl, ho, hs, hi⟩, fun h => ⟨h.lasting, h.once, h.stored, h.inOrder⟩⟩

/-! ## The chain of tokens

In the runs that meet the condition only the newest token is not revoked, at most one exchange is under way,
and the newest token that has left the server is in the cookie or on its way there. -/

/-- The request will put this pair into the cookie. -/
def Carries (req : Pending) (pair : TokenPair) : Prop :=
  req.kind = .proxy ∧ req.stage = .calling (some pair) ∨ req.stage = .responding (.store pair)

/-- The request awaits this exchange. -/
def Awaits (id : ℕ) (req : Pending) : Caller → Prop
  | .shared refresh => req.kind ≠ .refresh ∧ req.stage = .waiting refresh
  | .explicit id' => id' = id ∧ req.stage = .exchanging

/-- A request by itself, where this many tokens have left the server. -/
structure Regular (known : ℕ) (calls : List (Caller × Call)) (id : ℕ) (req : Pending) : Prop where
  cookie : ∃ r, req.cookies.refresh = some r ∧ r < known
  calling : ∀ newPair, req.stage = .calling newPair →
    req.kind ≠ .refresh ∧ ∀ pair, newPair = some pair → pair.refresh < known
  waiting : ∀ refresh, req.stage = .waiting refresh →
    req.kind ≠ .refresh ∧ ∃ x ∈ calls, x.1 = .shared refresh
  exchanging : req.stage = .exchanging → ∃ x ∈ calls, x.1 = .explicit id
  responding : ∀ c, req.stage = .responding c →
    c ≠ .clear ∧ ∀ pair, c = .store pair → pair.refresh < known

/-- The exchange under way, where this many tokens have been issued and have left the server. -/
def Proper (issued known : ℕ) : Call → Prop
  | .posted r => r + 1 = issued ∧ known = issued
  | .rotating r => r + 1 = issued ∧ known = issued
  | .replayed _ => False
  | .answered _ pair => ∃ p, pair = some p ∧ p.refresh + 1 = issued ∧ known + 1 = issued

/-- What is under way: nothing, or one exchange, which a request awaits. -/
inductive UnderWay (issued known : ℕ) (pending : Table ℕ Pending) : List (Caller × Call) → Prop where
  | none (h : known = issued) : UnderWay issued known pending []
  | one (caller : Caller) (call : Call) (h : Proper issued known call) (id : ℕ) (req : Pending)
      (hreq : pending.get id = some req) (hawaits : Awaits id req caller) :
      UnderWay issued known pending [(caller, call)]

/-- **The chain**, of which this many tokens have left the server. -/
structure Chain (s : State) (known : ℕ) : Prop where
  rows : ∀ r row, s.rows[r]? = some row → (row.revoked = true ↔ r + 1 < s.rows.length)
  reuse : s.reuse = 0
  underWay : UnderWay s.rows.length known s.pending s.calls
  cookie : ∃ r, s.cookies.refresh = some r ∧ r < known
  cache : ∀ r entry, s.cache r = some entry → entry.pair.refresh < known
  requests : ∀ id req, s.pending.get id = some req → Regular known s.calls id req
  unused : ∀ id, s.nextId ≤ id → s.pending.get id = none
  carried : (∃ r, s.cookies.refresh = some r ∧ r + 1 = known) ∨
    ∃ id req pair, s.pending.get id = some req ∧ Carries req pair ∧ pair.refresh + 1 = known

section Chain

variable {s t : State} {known issued id : ℕ} {req : Pending} {caller : Caller} {call : Call}
  {calls : List (Caller × Call)} {pending : Table ℕ Pending} {stage : Stage} {refresh : ℕ}

theorem known_le (h : Proper issued known call) : known ≤ issued := by
  cases call with
  | posted r => exact h.2.le
  | rotating r => exact h.2.le
  | replayed r => exact h.elim
  | answered r pair =>
    obtain ⟨p, -, -, hknown⟩ := h
    omega

theorem Chain.known_le (h : Chain s known) : known ≤ s.rows.length := by
  cases hcalls : s.calls with
  | nil =>
    have hway := h.underWay
    rw [hcalls] at hway
    cases hway with
    | none hknown => exact hknown.le
  | cons x xs =>
    have hway := h.underWay
    rw [hcalls] at hway
    cases hway with
    | one caller call hproper => exact Portal.known_le hproper

/-- **The chain keeps the session.** -/
theorem Chain.kept (h : Chain s known) : Kept s := by
  refine ⟨h.reuse, fun hquiet => ?_⟩
  have hnone : ∀ id req, s.pending.get id ≠ some req := by
    intro id req hreq
    have hmem := Table.mem_keys_of_get hreq
    rw [hquiet] at hmem
    exact absurd hmem List.not_mem_nil
  have hknown : known = s.rows.length := by
    cases hcalls : s.calls with
    | nil =>
      have hway := h.underWay
      rw [hcalls] at hway
      cases hway with
      | none hknown => exact hknown
    | cons x xs =>
      have hway := h.underWay
      rw [hcalls] at hway
      cases hway with
      | one _ _ _ id req hreq => exact absurd hreq (hnone id req)
  obtain ⟨r, hr, hlast⟩ | ⟨id, req, _, hreq, _⟩ := h.carried
  · have hlt : r < s.rows.length := by omega
    refine ⟨r, s.rows[r], hr, List.getElem?_eq_getElem hlt, ?_⟩
    have hrow := h.rows r s.rows[r] (List.getElem?_eq_getElem hlt)
    rw [Bool.eq_false_iff, ne_eq, hrow]
    omega
  · exact absurd hreq (hnone id req)

/-- **What is under way** where an exchange is. -/
theorem UnderWay.of_call (h : UnderWay issued known pending calls)
    (hcall : calls.lookup caller = some call) :
    calls = [(caller, call)] ∧ Proper issued known call ∧
      ∃ id req, pending.get id = some req ∧ Awaits id req caller := by
  cases h with
  | none => simp at hcall
  | one caller' call' hproper id req hreq hawaits =>
    by_cases hcaller : caller = caller'
    · subst hcaller
      have hcall' : call' = call := by simpa using hcall
      subst hcall'
      exact ⟨rfl, hproper, id, req, hreq, hawaits⟩
    · rw [List.lookup_cons, beq_eq_false_iff_ne.mpr hcaller] at hcall
      cases hcall

theorem ne_of_get {P : ℕ → Pending → Prop} {id' : ℕ} {req req' : Pending}
    (hreq : pending.get id = some req) (hreq' : pending.get id' = some req') (hP : P id' req')
    (hnot : ¬ P id req) : id' ≠ id := by
  rintro rfl
  rw [hreq] at hreq'
  cases hreq'
  exact hnot hP

theorem unused_modify {next : ℕ} (hunused : ∀ id, next ≤ id → pending.get id = none)
    (hreq : pending.get id = some req) (f : Pending → Pending) (id' : ℕ) (hid' : next ≤ id') :
    (pending.modify id f).get id' = none := by
  have hnone := hunused id' hid'
  have hne : id' ≠ id := by
    rintro rfl
    rw [hreq] at hnone
    cases hnone
  rw [Table.get_modify_of_ne _ _ hne, hnone]

theorem UnderWay.modify (h : UnderWay issued known pending calls) (hreq : pending.get id = some req)
    (hfree : ∀ caller, ¬ Awaits id req caller) (f : Pending → Pending) :
    UnderWay issued known (pending.modify id f) calls := by
  cases h with
  | none hknown => exact .none hknown
  | one caller call hproper id' req' hreq' hawaits =>
    have hne := ne_of_get (P := fun id req => Awaits id req caller) hreq hreq' hawaits (hfree caller)
    exact .one caller call hproper id' req' (by rwa [Table.get_modify_of_ne _ _ hne]) hawaits

/-- **A request goes on** that awaited no exchange. -/
theorem Chain.at_ (h : Chain s known) (hreq : s.pending.get id = some req)
    (hnew : Regular known s.calls id { req with stage := stage })
    (hfree : ∀ caller, ¬ Awaits id req caller)
    (hcarries : ∀ pair, Carries req pair → Carries { req with stage := stage } pair) :
    Chain (s.at_ id stage) known where
  rows := h.rows
  reuse := h.reuse
  underWay := h.underWay.modify hreq hfree _
  cookie := h.cookie
  cache := h.cache
  requests id' req' hreq' := by
    obtain ⟨rfl, r, hr, rfl⟩ | ⟨hne, hget⟩ := Table.get_modify_cases hreq'
    · rw [hreq] at hr
      cases hr
      exact hnew
    · exact h.requests id' req' hget
  unused := unused_modify h.unused hreq _
  carried := by
    obtain hcookie | ⟨id', req', pair, hreq', hpair, hlast⟩ := h.carried
    · exact .inl hcookie
    · right
      by_cases hid : id' = id
      · subst hid
        rw [hreq] at hreq'
        cases hreq'
        refine ⟨id', _, pair, ?_, hcarries pair hpair, hlast⟩
        show (s.pending.modify id' _).get id' = _
        rw [Table.get_modify_self, hreq]
        rfl
      · refine ⟨id', req', pair, ?_, hpair, hlast⟩
        show (s.pending.modify id _).get id' = _
        rw [Table.get_modify_of_ne _ _ hid, hreq']

/-- **Where a token is sent for the first time**, it is the newest, and no exchange is under way. -/
theorem Chain.idle (h : Chain s known) (hlt : refresh < known) (hfirst : untouched s refresh = true) :
    s.calls = [] ∧ known = s.rows.length ∧ refresh + 1 = s.rows.length := by
  simp only [untouched, Bool.and_eq_true, List.all_eq_true, decide_eq_true_eq] at hfirst
  obtain ⟨hrevoked, hcalls⟩ := hfirst
  have hlength : refresh < s.rows.length := lt_of_lt_of_le hlt h.known_le
  have hrow := List.getElem?_eq_getElem hlength
  have hlast : refresh + 1 = s.rows.length := by
    have hiff := h.rows refresh _ hrow
    rw [hrow] at hrevoked
    have hfalse : s.rows[refresh].revoked = false := by simpa using hrevoked
    rw [hfalse] at hiff
    have hnot : ¬ refresh + 1 < s.rows.length := fun hless => by simpa using hiff.mpr hless
    omega
  have hway := h.underWay
  generalize hcs : s.calls = cs at hway hcalls
  cases hway with
  | none hknown => exact ⟨rfl, hknown, hlast⟩
  | one caller call hproper =>
    have htoken := hcalls _ List.mem_cons_self
    cases call with
    | posted r =>
      have hr := hproper.1
      exact absurd (show r = refresh by omega) htoken
    | rotating r =>
      have hr := hproper.1
      exact absurd (show r = refresh by omega) htoken
    | replayed r => exact hproper.elim
    | answered r pair =>
      obtain ⟨p, -, -, hknown⟩ := hproper
      omega

/-- **An exchange begins.** -/
theorem Chain.post (h : Chain s known) (hreq : s.pending.get id = some req)
    (hnew : Regular known [(caller, .posted refresh)] id { req with stage := stage })
    (hawaits : Awaits id { req with stage := stage } caller)
    (hcarries : ∀ pair, ¬ Carries req pair)
    (hlt : refresh < known) (hfirst : untouched s refresh = true) :
    Chain ((s.post caller refresh).at_ id stage) known := by
  obtain ⟨hcalls, hknown, hlast⟩ := h.idle hlt hfirst
  have hself : (s.pending.modify id fun req => { req with stage := stage }).get id =
      some { req with stage := stage } := by
    rw [Table.get_modify_self, hreq]
    rfl
  refine ⟨h.rows, h.reuse, ?_, h.cookie, h.cache, ?_, ?_, ?_⟩
  · show UnderWay s.rows.length known _ ((caller, .posted refresh) :: s.calls)
    rw [hcalls]
    exact .one caller _ ⟨hlast, hknown⟩ id _ hself hawaits
  · intro id' req' hreq'
    show Regular known ((caller, .posted refresh) :: s.calls) id' req'
    rw [hcalls]
    obtain ⟨rfl, r, hr, rfl⟩ | ⟨hne, hget⟩ := Table.get_modify_cases hreq'
    · have hsame : s.pending.get id' = some r := hr
      rw [hreq] at hsame
      cases hsame
      exact hnew
    · have hregular := h.requests id' req' hget
      rw [hcalls] at hregular
      refine ⟨hregular.cookie, hregular.calling, fun r hr => ?_, fun hr => ?_, hregular.responding⟩
      · obtain ⟨-, x, hx, -⟩ := hregular.waiting r hr
        exact absurd hx List.not_mem_nil
      · obtain ⟨x, hx, -⟩ := hregular.exchanging hr
        exact absurd hx List.not_mem_nil
  · exact unused_modify h.unused hreq _
  · obtain hcookie | ⟨id', req', pair, hreq', hpair, hpairLast⟩ := h.carried
    · exact .inl hcookie
    · have hne := ne_of_get (P := fun _ req => Carries req pair) hreq hreq' hpair (hcarries pair)
      refine .inr ⟨id', req', pair, ?_, hpair, hpairLast⟩
      exact (Table.get_modify_of_ne _ _ hne).trans hreq'

/-- **An exchange goes on**, with what has been issued then. -/
theorem Chain.proceed {rows : List RefreshToken} (h : Chain s known)
    (hcall : s.call caller = some call)
    {call' : Call} (hproper : Proper rows.length known call')
    (hrows : ∀ r row, rows[r]? = some row → (row.revoked = true ↔ r + 1 < rows.length)) :
    Chain { s.proceed caller call' with rows := rows } known := by
  obtain ⟨hcalls, -, id, req, hreq, hawaits⟩ := h.underWay.of_call hcall
  have hnew : (s.proceed caller call').calls = [(caller, call')] := by
    simp [State.proceed, hcalls]
  refine ⟨hrows, h.reuse, ?_, h.cookie, h.cache, ?_, h.unused, h.carried⟩
  · show UnderWay rows.length known s.pending (s.proceed caller call').calls
    rw [hnew]
    exact .one caller call' hproper id req hreq hawaits
  · intro id' req' hreq'
    have hregular := h.requests id' req' hreq'
    show Regular known (s.proceed caller call').calls id' req'
    rw [hcalls] at hregular
    rw [hnew]
    refine ⟨hregular.cookie, hregular.calling, fun r hr => ?_, fun hr => ?_, hregular.responding⟩
    · obtain ⟨hkind, x, hx, hcaller⟩ := hregular.waiting r hr
      rw [List.mem_singleton.mp hx] at hcaller
      exact ⟨hkind, _, List.mem_singleton.mpr rfl, hcaller⟩
    · obtain ⟨x, hx, hcaller⟩ := hregular.exchanging hr
      rw [List.mem_singleton.mp hx] at hcaller
      exact ⟨_, List.mem_singleton.mpr rfl, hcaller⟩

/-- **The server reads the row** of the newest token. -/
theorem Chain.look (h : Chain s known) (hcall : s.call caller = some (.posted refresh))
    (hlasting : Lasting s (.look caller)) : Chain (s.proceed caller (lookRow s refresh)) known := by
  obtain ⟨-, ⟨hlast, hknown⟩, -⟩ := h.underWay.of_call hcall
  have hlt : refresh < s.rows.length := by omega
  have hrow := List.getElem?_eq_getElem hlt
  have hlive : s.now < s.rows[refresh].expiresAt := by
    simpa [Lasting, lasting, hcall, hrow] using hlasting
  have hfresh : s.rows[refresh].revoked = false := by
    rw [Bool.eq_false_iff, ne_eq, h.rows refresh _ hrow]
    omega
  have hlook : lookRow s refresh = .rotating refresh := by
    simp [lookRow, hrow, hfresh, not_le.mpr hlive]
  rw [hlook]
  exact h.proceed hcall ⟨hlast, hknown⟩ h.rows

/-- **The server rotates** the newest token: it is revoked, and there is a new one. -/
theorem Chain.rotate (h : Chain s known) (hcall : s.call caller = some (.rotating refresh))
    (expire : Time) (familyId : ℕ) : Chain (rotate expire s caller refresh familyId) known := by
  obtain ⟨-, ⟨hlast, hknown⟩, -⟩ := h.underWay.of_call hcall
  have hlength : (s.rows.modify refresh RefreshToken.revoke ++
      [(⟨familyId, s.now + expire, false⟩ : RefreshToken)]).length = s.rows.length + 1 := by
    simp
  have hproper : Proper (s.rows.modify refresh RefreshToken.revoke ++
      [(⟨familyId, s.now + expire, false⟩ : RefreshToken)]).length known
      (.answered refresh (some ⟨s.rows.length, s.rows.length⟩)) :=
    ⟨_, rfl, hlength.symm, by rw [hlength, hknown]⟩
  refine h.proceed hcall hproper fun r row hrow => ?_
  rw [hlength]
  by_cases hr : r < s.rows.length
  · rw [List.getElem?_append_left (by simpa using hr), List.getElem?_modify] at hrow
    obtain ⟨old, hold, rfl⟩ := Option.map_eq_some_iff.mp hrow
    by_cases hnewest : refresh = r
    · simp only [hnewest, if_true, RefreshToken.revoke, true_iff]
      omega
    · simp only [hnewest, if_false]
      rw [h.rows r old hold]
      omega
  · rw [List.getElem?_append_right (by simpa using hr)] at hrow
    have hzero : r - s.rows.length = 0 := by
      by_contra hne
      rw [List.getElem?_eq_none (by simp; omega)] at hrow
      cases hrow
    simp only [List.length_modify, hzero, List.getElem?_cons_zero, Option.some.injEq] at hrow
    subst hrow
    simp only [Bool.false_eq_true, false_iff]
    omega

theorem Regular.answered (h : Regular known [(caller, call)] id req)
    (hfree : ¬ Awaits id req caller) :
    Regular (known + 1) [] id req where
  cookie := by
    obtain ⟨r, hr, hlt⟩ := h.cookie
    exact ⟨r, hr, by omega⟩
  calling newPair hstage := by
    obtain ⟨hkind, hpair⟩ := h.calling newPair hstage
    refine ⟨hkind, fun pair hpair' => ?_⟩
    have hlt := hpair pair hpair'
    omega
  waiting refresh hstage := by
    obtain ⟨hkind, x, hx, hcaller⟩ := h.waiting refresh hstage
    obtain rfl := List.mem_singleton.mp hx
    obtain rfl : caller = .shared refresh := hcaller
    exact absurd ⟨hkind, hstage⟩ hfree
  exchanging hstage := by
    obtain ⟨x, hx, hcaller⟩ := h.exchanging hstage
    obtain rfl := List.mem_singleton.mp hx
    obtain rfl : caller = .explicit id := hcaller
    exact absurd ⟨rfl, hstage⟩ hfree
  responding c hstage := by
    obtain ⟨hclear, hpair⟩ := h.responding c hstage
    refine ⟨hclear, fun pair hpair' => ?_⟩
    have hlt := hpair pair hpair'
    omega

/-- **The answer to a shared exchange.** -/
theorem Chain.resolveShared (h : Chain s known) {refresh' : ℕ} {pair : Option TokenPair}
    (hcall : s.call (.shared refresh) = some (.answered refresh' pair))
    (hstored : stored s (.resolve (.shared refresh)) = true) :
    Chain (resolveShared s refresh pair) (known + 1) := by
  obtain ⟨hcalls, ⟨p, rfl, hlast, hknown⟩, -⟩ := h.underWay.of_call hcall
  have hleft : (s.finishCall (.shared refresh)).calls = [] := by
    simp [State.finishCall, hcalls]
  -- one of the requests that go on will put the pair into the cookie
  have hcarrier : ∃ id req, s.pending.get id = some req ∧ req.kind = .proxy ∧
      req.stage = .waiting refresh := by
    simp only [stored, hcall, List.any_eq_true, Bool.and_eq_true, decide_eq_true_eq] at hstored
    obtain ⟨req, hmem, hkind, hstage⟩ := hstored
    obtain ⟨id, hreq⟩ := Table.mem_rows.mp hmem
    exact ⟨id, req, hreq, hkind, hstage⟩
  refine ⟨h.rows, h.reuse, ?_, ?_, ?_, ?_, ?_, ?_⟩
  · show UnderWay s.rows.length (known + 1) _ (s.finishCall (.shared refresh)).calls
    rw [hleft]
    exact .none hknown
  · obtain ⟨r, hr, hlt⟩ := h.cookie
    exact ⟨r, hr, by omega⟩
  · intro r entry hentry
    obtain ⟨hset, -⟩ := Option.filter_eq_some_iff.mp hentry
    split at hset
    · cases hset
      show p.refresh < known + 1
      omega
    · have hlt := h.cache r entry hset
      omega
  · intro id req hreq
    obtain ⟨old, hold, rfl⟩ := Option.map_eq_some_iff.mp hreq
    have hregular := h.requests id old hold
    rw [hcalls] at hregular
    show Regular (known + 1) (s.finishCall (.shared refresh)).calls id _
    rw [hleft]
    by_cases hwaiting : old.stage = .waiting refresh
    · obtain ⟨hkind, -⟩ := hregular.waiting refresh hwaiting
      have hresume : old.resume refresh (some p) = { old with stage := .calling (some p) } := by
        simp [Pending.resume, hwaiting]
      rw [hresume]
      refine ⟨?_, ?_, by simp, by simp, by simp⟩
      · obtain ⟨r, hr, hlt⟩ := hregular.cookie
        exact ⟨r, hr, by omega⟩
      · rintro newPair hnew
        cases hnew
        refine ⟨hkind, fun pair hpair => ?_⟩
        cases hpair
        omega
    · have hresume : old.resume refresh (some p) = old := by
        simp [Pending.resume, hwaiting]
      rw [hresume]
      exact hregular.answered fun hawaits => hwaiting hawaits.2
  · intro id hid
    show (s.pending.get id).map _ = none
    rw [h.unused id hid]
    rfl
  · obtain ⟨id, req, hreq, hkind, hstage⟩ := hcarrier
    refine .inr ⟨id, req.resume refresh (some p), p, ?_, ?_, by omega⟩
    · show (s.pending.get id).map _ = _
      rw [hreq]
      rfl
    · left
      simp [Pending.resume, hstage, hkind]

/-- **The answer to an explicit refresh.** -/
theorem Chain.resolveExplicit (h : Chain s known) {pair : Option TokenPair}
    (hcall : s.call (.explicit id) = some (.answered refresh pair)) :
    Chain ((s.finishCall (.explicit id)).at_ id (.responding (pair.elim .keep .store)))
    (known + 1) := by
  obtain ⟨hcalls, ⟨p, rfl, hlast, hknown⟩, id', req, hreq, hid, hstage⟩ := h.underWay.of_call hcall
  subst hid
  have hleft : (s.finishCall (.explicit id)).calls = [] := by
    simp [State.finishCall, hcalls]
  have hself : (s.pending.modify id fun req => { req with stage := .responding (.store p) }).get id =
      some { req with stage := .responding (.store p) } := by
    rw [Table.get_modify_self, hreq]
    rfl
  refine ⟨h.rows, h.reuse, ?_, ?_, ?_, ?_, ?_, ?_⟩
  · show UnderWay s.rows.length (known + 1) _ (s.finishCall (.explicit id)).calls
    rw [hleft]
    exact .none hknown
  · obtain ⟨r, hr, hlt⟩ := h.cookie
    exact ⟨r, hr, by omega⟩
  · intro r entry hentry
    have hlt := h.cache r entry hentry
    omega
  · intro id' req' hreq'
    show Regular (known + 1) (s.finishCall (.explicit id)).calls id' req'
    rw [hleft]
    obtain ⟨rfl, old, hold, rfl⟩ | ⟨hne, hget⟩ := Table.get_modify_cases hreq'
    · have hregular := h.requests id' old hold
      refine ⟨?_, by simp, by simp, by simp, ?_⟩
      · obtain ⟨r, hr, hlt⟩ := hregular.cookie
        exact ⟨r, hr, by omega⟩
      · rintro c hc
        cases hc
        refine ⟨by simp, fun pair hpair => ?_⟩
        cases hpair
        omega
    · have hregular := h.requests id' req' hget
      rw [hcalls] at hregular
      exact hregular.answered fun hawaits => hne hawaits.1.symm
  · exact unused_modify h.unused hreq _
  · exact .inr ⟨id, _, p, hself, .inr rfl, by omega⟩

theorem not_awaits_of_responding {c : SetCookie} (h : req.stage = .responding c) (caller : Caller) :
    ¬ Awaits id req caller := by
  intro hawaits
  cases caller with
  | shared r => exact absurd (h.symm.trans hawaits.2) (by simp)
  | explicit i => exact absurd (h.symm.trans hawaits.2) (by simp)

theorem carries_of_responding {c : SetCookie} (h : req.stage = .responding c) {pair : TokenPair} :
    Carries req pair ↔ c = .store pair := by
  simp [Carries, h]

/-- **A response gets to the browser.** -/
theorem Chain.deliver (h : Chain s known) {c : SetCookie} (hreq : s.pending.get id = some req)
    (hstage : req.stage = .responding c)
    (horder : ∀ pair r, c = .store pair → s.cookies.refresh = some r → r ≤ pair.refresh) :
    Chain { s with cookies := s.cookies.set c, pending := s.pending.erase id } known := by
  obtain ⟨hclear, hpair⟩ := (h.requests id req hreq).responding c hstage
  have hleft : ∀ {id' req'}, s.pending.get id' = some req' → id' ≠ id →
      (s.pending.erase id).get id' = some req' := by
    intro id' req' hreq' hne
    rw [Table.get_erase_of_ne _ hne, hreq']
  have hway : UnderWay s.rows.length known (s.pending.erase id) s.calls := by
    have hway := h.underWay
    generalize s.calls = cs at hway
    cases hway with
    | none hknown => exact .none hknown
    | one caller call hproper id' req' hreq' hawaits =>
      have hne := ne_of_get (P := fun id req => Awaits id req caller) hreq hreq' hawaits
        (not_awaits_of_responding hstage caller)
      exact .one caller call hproper id' req' (hleft hreq' hne) hawaits
  have hget : ∀ {id' req'}, (s.pending.erase id).get id' = some req' → s.pending.get id' = some req' := by
    intro id' req' hreq'
    by_cases hne : id' = id
    · subst hne
      rw [Table.get_erase_self] at hreq'
      cases hreq'
    · rwa [Table.get_erase_of_ne _ hne] at hreq'
  have hrequests : ∀ id' req', (s.pending.erase id).get id' = some req' →
      Regular known s.calls id' req' := fun id' req' hreq' => h.requests id' req' (hget hreq')
  have hunused : ∀ id', s.nextId ≤ id' → (s.pending.erase id).get id' = none := by
    intro id' hid'
    rw [Option.eq_none_iff_forall_ne_some]
    intro req' hreq'
    have hnone := h.unused id' hid'
    rw [hget hreq'] at hnone
    cases hnone
  cases c with
  | clear => exact absurd rfl hclear
  | keep =>
    refine ⟨h.rows, h.reuse, hway, h.cookie, h.cache, hrequests, hunused, ?_⟩
    obtain hcookie | ⟨id', req', pair, hreq', hcarries, hlast⟩ := h.carried
    · exact .inl hcookie
    · have hnot : ¬ Carries req pair := fun hc => by
        cases (carries_of_responding hstage).mp hc
      have hne := ne_of_get (P := fun _ req => Carries req pair) hreq hreq' hcarries hnot
      exact .inr ⟨id', req', pair, hleft hreq' hne, hcarries, hlast⟩
  | store pair =>
    have hlt := hpair pair rfl
    refine ⟨h.rows, h.reuse, hway, ⟨pair.refresh, rfl, hlt⟩, h.cache, hrequests, hunused, ?_⟩
    by_cases hnewest : pair.refresh + 1 = known
    · exact .inl ⟨pair.refresh, rfl, hnewest⟩
    · obtain ⟨r, hr, hlast⟩ | ⟨id', req', pair', hreq', hcarries, hlast⟩ := h.carried
      · -- an older token does not come after the newest
        have hle := horder pair r rfl hr
        omega
      · have hnot : ¬ Carries req pair' := fun hc => by
          cases (carries_of_responding hstage).mp hc
          exact hnewest hlast
        have hne := ne_of_get (P := fun _ req => Carries req pair') hreq hreq' hcarries hnot
        exact .inr ⟨id', req', pair', hleft hreq' hne, hcarries, hlast⟩

/-- **The browser sends a request.** -/
theorem Chain.send (h : Chain s known) (kind : Kind) :
    Chain { s with pending := s.pending.insert s.nextId ⟨kind, s.cookies, .sent⟩, nextId := s.nextId + 1 }
      known where
  rows := h.rows
  reuse := h.reuse
  underWay := by
    have hway := h.underWay
    show UnderWay _ _ _ s.calls
    generalize s.calls = cs at hway
    cases hway with
    | none hknown => exact .none hknown
    | one caller call hproper id req hreq hawaits =>
      exact .one caller call hproper id req (Table.get_insert_of_get hreq) hawaits
  cookie := h.cookie
  cache := h.cache
  requests id req hreq := by
    obtain ⟨rfl, rfl, -⟩ | hold := Table.get_insert_cases hreq
    · exact ⟨h.cookie, by simp, by simp, by simp, by simp⟩
    · exact h.requests id req hold
  unused id hid := by
    have hlt : s.nextId + 1 ≤ id := hid
    show (s.pending.insert s.nextId _).get id = none
    rw [Table.get_insert_of_ne _ (by omega)]
    exact h.unused id (by omega)
  carried := by
    obtain hcookie | ⟨id, req, pair, hreq, hcarries, hlast⟩ := h.carried
    · exact .inl hcookie
    · exact .inr ⟨id, req, pair, Table.get_insert_of_get hreq, hcarries, hlast⟩

theorem not_awaits (h : req.stage = .sent ∨ ∃ newPair, req.stage = .calling newPair)
    (caller : Caller) :
    ¬ Awaits id req caller := by
  intro hawaits
  cases caller with
  | shared r =>
    have hstage := hawaits.2
    obtain h | ⟨newPair, h⟩ := h <;> simp [hstage] at h
  | explicit i =>
    have hstage := hawaits.2
    obtain h | ⟨newPair, h⟩ := h <;> simp [hstage] at h

theorem not_carries_of_sent (h : req.stage = .sent) (pair : TokenPair) : ¬ Carries req pair := by
  rintro (⟨-, hstage⟩ | hstage) <;> simp [h] at hstage

theorem not_carries_of_calling (h : req.stage = .calling none) (pair : TokenPair) :
    ¬ Carries req pair := by
  rintro (⟨-, hstage⟩ | hstage) <;> simp [h] at hstage

variable {expire : Time}

/-- **A request gets to the portal.** -/
theorem Chain.arrive (h : Chain s known) (hmeets : Orderly s (.arrive id))
    (hstep : step expire s (.arrive id) = some t) : Chain t known := by
  cases hget : s.pending.get id with
  | none => simp [step, hget] at hstep
  | some req =>
    obtain ⟨kind, ⟨access, token⟩, stage⟩ := req
    have hregular := h.requests id _ hget
    obtain ⟨r, hr, hlt⟩ := hregular.cookie
    obtain rfl : token = some r := hr
    cases stage with
    | sent =>
      have hfree : ∀ caller, ¬ Awaits id ⟨kind, ⟨access, some r⟩, .sent⟩ caller := not_awaits (.inl rfl)
      have hcarries : ∀ pair, ¬ Carries ⟨kind, ⟨access, some r⟩, .sent⟩ pair := not_carries_of_sent rfl
      by_cases hkind : kind = .refresh
      · subst hkind
        simp only [step, hget, Option.some.injEq] at hstep
        subst hstep
        have hfirst : untouched s r = true := by simpa [begins, hget] using hmeets.once
        refine h.post hget ⟨⟨r, rfl, hlt⟩, by simp, by simp, ?_, by simp⟩ ⟨rfl, rfl⟩ hcarries hlt hfirst
        exact fun _ => ⟨_, List.mem_singleton.mpr rfl, rfl⟩
      · have hcalling : t = s.at_ id (.calling none) := by
          cases kind with
          | refresh => exact absurd rfl hkind
          | proxy => simpa [step, hget] using hstep.symm
          | session => simpa [step, hget] using hstep.symm
        rw [hcalling]
        refine h.at_ hget ⟨⟨r, rfl, hlt⟩, ?_, by simp, by simp, by simp⟩ hfree
          fun pair hpair => absurd hpair (hcarries pair)
        rintro newPair hnew
        cases hnew
        exact ⟨hkind, by simp⟩
    | calling newPair => cases kind <;> simp [step, hget] at hstep
    | waiting refresh => cases kind <;> simp [step, hget] at hstep
    | exchanging => cases kind <;> simp [step, hget] at hstep
    | responding c => cases kind <;> simp [step, hget] at hstep

/-- **A request asks for a new pair.** -/
theorem Chain.refreshTokens (h : Chain s known) {kind : Kind} {cookies : Cookies}
    (hget : s.pending.get id = some ⟨kind, cookies, .calling none⟩)
    (hr : cookies.refresh = some refresh)
    (hmeets : Orderly s (.reply id true)) : Chain (s.refreshTokens id refresh) known := by
  have hregular := h.requests id _ hget
  obtain ⟨hkind, -⟩ := hregular.calling none rfl
  obtain ⟨r, hr', hlt⟩ := hregular.cookie
  rw [show cookies.refresh = some r from hr'] at hr
  cases hr
  have hfree : ∀ caller, ¬ Awaits id ⟨kind, cookies, .calling none⟩ caller :=
    not_awaits (.inr ⟨none, rfl⟩)
  have hcarries : ∀ pair, ¬ Carries ⟨kind, cookies, .calling none⟩ pair := not_carries_of_calling rfl
  have hkeeps : ∀ stage pair, Carries ⟨kind, cookies, .calling none⟩ pair →
      Carries ⟨kind, cookies, stage⟩ pair := fun _ pair hpair => absurd hpair (hcarries pair)
  unfold State.refreshTokens
  cases hcached : s.cached refresh with
  | some entry =>
    obtain ⟨hentry, -⟩ := Option.filter_eq_some_iff.mp hcached
    refine h.at_ hget ⟨hregular.cookie, ?_, by simp, by simp, by simp⟩ hfree (hkeeps _)
    rintro newPair hnew
    cases hnew
    refine ⟨hkind, fun pair hpair => ?_⟩
    cases hpair
    exact h.cache refresh entry hentry
  | none =>
    cases hcall : s.call (.shared refresh) with
    | some call =>
      obtain ⟨hcalls, -, -⟩ := h.underWay.of_call hcall
      simp only [Option.isSome_some, if_true]
      refine h.at_ hget ⟨hregular.cookie, by simp, ?_, by simp, by simp⟩ hfree (hkeeps _)
      rintro r hwaiting
      cases hwaiting
      refine ⟨hkind, (.shared refresh, call), ?_, rfl⟩
      rw [hcalls]
      exact List.mem_singleton.mpr rfl
    | none =>
      simp only [Option.isSome_none, Bool.false_eq_true, if_false]
      have hfirst : untouched s refresh = true := by
        obtain ⟨access, token⟩ := cookies
        obtain rfl : token = some refresh := hr'
        simpa [begins, hget, hcached, hcall] using hmeets.once
      refine h.post hget ⟨hregular.cookie, by simp, ?_, by simp, by simp⟩ ⟨hkind, rfl⟩ hcarries hlt hfirst
      rintro r hwaiting
      cases hwaiting
      exact ⟨hkind, _, List.mem_singleton.mpr rfl, rfl⟩

/-- **The server answers a request.** -/
theorem Chain.reply (h : Chain s known) {unauthorized : Bool}
    (hmeets : Orderly s (.reply id unauthorized))
    (hstep : step expire s (.reply id unauthorized) = some t) : Chain t known := by
  cases hget : s.pending.get id with
  | none => simp [step, hget] at hstep
  | some req =>
    obtain ⟨kind, cookies, stage⟩ := req
    have hregular := h.requests id _ hget
    obtain ⟨r, hr, hlt⟩ := hregular.cookie
    cases stage with
    | calling newPair =>
      obtain ⟨hkind, hpair⟩ := hregular.calling newPair rfl
      have hfree : ∀ caller, ¬ Awaits id ⟨kind, cookies, .calling newPair⟩ caller :=
        not_awaits (.inr ⟨newPair, rfl⟩)
      cases newPair with
      | none =>
        cases unauthorized with
        | true =>
          simp only [step, hget, show cookies.refresh = some r from hr, Option.some.injEq] at hstep
          subst hstep
          exact h.refreshTokens hget hr hmeets
        | false =>
          simp only [step, hget, Option.some.injEq] at hstep
          subst hstep
          have hkeep : finish kind false none = .keep := by cases kind <;> rfl
          rw [hkeep]
          refine h.at_ hget ⟨hregular.cookie, by simp, by simp, by simp, by simp⟩ hfree fun pair hc => ?_
          exact absurd hc (not_carries_of_calling rfl pair)
      | some pair =>
        simp only [step, hget, Option.some.injEq] at hstep
        subst hstep
        refine h.at_ hget ⟨hregular.cookie, by simp, by simp, by simp, ?_⟩ hfree ?_
        · rintro c hc
          cases hc
          cases kind with
          | refresh => exact absurd rfl hkind
          | proxy => exact ⟨by simp [finish], fun p hp => by
              cases hp
              exact hpair pair rfl⟩
          | session => simp [finish]
        · rintro p (⟨hproxy, hstage⟩ | hstage)
          · obtain rfl : kind = .proxy := hproxy
            cases hstage
            exact .inr rfl
          · cases hstage
    | sent => simp [step, hget] at hstep
    | waiting refresh => simp [step, hget] at hstep
    | exchanging => simp [step, hget] at hstep
    | responding c => simp [step, hget] at hstep

theorem of_look (h : step expire s (.look caller) = some t) :
    ∃ refresh, s.call caller = some (.posted refresh) ∧ t = s.proceed caller (lookRow s refresh) := by
  simp only [step] at h
  split at h
  · rename_i refresh hcall
    exact ⟨refresh, hcall, (Option.some.inj h).symm⟩
  · cases h

/-- The server commits a rotation, or the refusal of a token that is replayed. -/
theorem of_commit (h : step expire s (.commit caller) = some t) :
    ∃ refresh, s.call caller = some (.replayed refresh) ∨ s.call caller = some (.rotating refresh) ∧
      ∃ familyId, t = rotate expire s caller refresh familyId := by
  simp only [step] at h
  split at h
  · rename_i refresh hcall
    obtain ⟨row, -, rfl⟩ := Option.map_eq_some_iff.mp h
    exact ⟨refresh, .inr ⟨hcall, row.familyId, rfl⟩⟩
  · rename_i refresh hcall
    exact ⟨refresh, .inl hcall⟩
  · cases h

/-- The answer to a shared exchange that gets to the portal is the server's. -/
theorem of_resolve_shared (h : step expire s (.resolve (.shared refresh)) = some t) :
    ∃ r pair, s.call (.shared refresh) = some
    (.answered r pair) ∧ t = resolveShared s refresh pair := by
  simp only [step] at h
  split at h
  · rename_i r pair hcall
    exact ⟨r, pair, hcall, (Option.some.inj h).symm⟩
  · cases h

/-- The answer to an explicit refresh that gets to the portal is the server's. -/
theorem of_resolve_explicit (h : step expire s (.resolve (.explicit id)) = some t) :
    ∃ r pair, s.call (.explicit id) = some (.answered r pair) ∧
      t = (s.finishCall (.explicit id)).at_ id (.responding (pair.elim .keep .store)) := by
  simp only [step] at h
  split at h
  · rename_i r pair hcall
    exact ⟨r, pair, hcall, (Option.some.inj h).symm⟩
  · cases h

theorem of_deliver (h : step expire s (.deliver id) = some t) :
    ∃ kind cookies c, s.pending.get id = some ⟨kind, cookies, .responding c⟩ ∧
      t = { s with cookies := s.cookies.set c, pending := s.pending.erase id } := by
  simp only [step] at h
  split at h
  · rename_i kind cookies c hget
    exact ⟨kind, cookies, c, hget, (Option.some.inj h).symm⟩
  · cases h

/-- **One step.** -/
theorem Chain.step (h : Chain s known) {a : Action} (hmeets : Orderly s a)
    (hstep : step expire s a = some t) : ∃ known', Chain t known' := by
  cases a with
  | send kind =>
    cases hstep
    exact ⟨known, h.send kind⟩
  | arrive id => exact ⟨known, h.arrive hmeets hstep⟩
  | reply id unauthorized => exact ⟨known, h.reply hmeets hstep⟩
  | look caller =>
    obtain ⟨refresh, hcall, rfl⟩ := of_look hstep
    exact ⟨known, h.look hcall hmeets.lasting⟩
  | commit caller =>
    obtain ⟨refresh, hcall | ⟨hcall, familyId, rfl⟩⟩ := of_commit hstep
    · -- in the chain no token is presented that is revoked
      obtain ⟨-, hproper, -⟩ := h.underWay.of_call hcall
      exact hproper.elim
    · exact ⟨known, h.rotate hcall expire familyId⟩
  | resolve caller =>
    cases caller with
    | shared refresh =>
      obtain ⟨r, pair, hcall, rfl⟩ := of_resolve_shared hstep
      exact ⟨known + 1, h.resolveShared hcall hmeets.stored⟩
    | explicit id =>
      obtain ⟨r, pair, hcall, rfl⟩ := of_resolve_explicit hstep
      exact ⟨known + 1, h.resolveExplicit hcall⟩
  | deliver id =>
    obtain ⟨kind, cookies, c, hget, rfl⟩ := of_deliver hstep
    refine ⟨known, h.deliver hget rfl ?_⟩
    rintro pair r rfl hr
    have horder := hmeets.inOrder
    simpa [inOrder, hget, hr] using horder
  | wait time =>
    cases hstep
    exact ⟨known, h.rows, h.reuse, h.underWay, h.cookie, h.cache, h.requests, h.unused, h.carried⟩

end Chain

theorem chain_start (expire now : Time) : Chain (start expire now) 1 where
  rows r row hrow := by
    cases r with
    | zero =>
      cases hrow
      simp [start]
    | succ r => simp [start] at hrow
  reuse := rfl
  underWay := .none rfl
  cookie := ⟨0, rfl, by decide⟩
  cache r entry hentry := by cases hentry
  requests id req hreq := by cases hreq
  unused _ _ := rfl
  carried := .inl ⟨0, rfl, rfl⟩

/-- **The session is kept** in every run whose steps meet the condition: no token is replayed, and whenever
all responses have been delivered the refresh token in the cookie is not revoked. -/
theorem session_kept_of_runs {expire now : Time} {s : State}
    (hrun : Runs (step expire) Orderly (start expire now) s) : Kept s := by
  have hchain : ∃ known, Chain s known := by
    refine hrun.invariant (I := fun s => ∃ known, Chain s known) ?_ ⟨1, chain_start expire now⟩
    rintro s a t ⟨known, hs⟩ hmeets hstep
    exact hs.step hmeets hstep
  obtain ⟨known, hchain⟩ := hchain
  exact hchain.kept

/-! ## Two runs

Tokens last for a week, and the access token has expired when the first request comes. -/

/-- How long a refresh token lasts. -/
def week : Time := seconds 604800

/-- The first token is exchanged. -/
def exchange : List Action :=
  [.look (.shared 0), .commit (.shared 0), .resolve (.shared 0)]

/-- A request is passed on. -/
def passedOn : List Action :=
  [.send .proxy, .arrive 0, .reply 0 true] ++ exchange ++ [.reply 0 false, .deliver 0]

/-- A look at the session. -/
def looked : List Action :=
  [.send .session, .arrive 0, .reply 0 true] ++ exchange ++ [.reply 0 false, .deliver 0]

/-- A minute later a request is passed on with the cookies that the browser has. -/
def minuteLater : List Action :=
  [.wait 60000000, .send .proxy, .arrive 1, .reply 1 true] ++ exchange ++ [.deliver 1]

theorem session_kept_by_proxy : ∃ s,
    Runs (step week) Orderly (start week 0) s ∧ s.cookies.refresh = some 1 ∧ Kept s := by
  obtain ⟨s, hrun, hs⟩ := exists_runs_of_exec (G := Orderly) (step week) (start week 0) passedOn
    (p := fun s : State => decide (s.cookies.refresh = some 1)) (by decide +kernel)
  exact ⟨s, hrun, of_decide_eq_true hs, session_kept_of_runs hrun⟩

/-- **A look at the session** exchanges the token, and no cookie is set: the browser keeps the old one, which
is revoked.  A minute later the portal presents it again; the server revokes the family, and the portal
clears the cookies. -/
theorem session_lost_by_look : ∃ s t,
    Runs (step week) Lasting (start week 0) s ∧ Runs (step week) Lasting s t ∧
      ¬ Kept s ∧ t.reuse = 1 ∧ t.cookies = ⟨none, none⟩ := by
  obtain ⟨s, t, hs, ht, hlost, hreuse⟩ := exists_runs_of_exec_exec (G := Lasting) (step week)
    (start week 0) looked minuteLater
    (p := fun s : State => decide (s.pending.keys = [] ∧ s.cookies.refresh = some 0 ∧
      (s.rows[0]?).all RefreshToken.revoked = true))
    (q := fun t : State => decide (t.reuse = 1 ∧ t.cookies = ⟨none, none⟩)) (by decide +kernel)
  obtain ⟨hquiet, hcookie, hrevoked⟩ := of_decide_eq_true hlost
  refine ⟨s, t, hs, ht, ?_, of_decide_eq_true hreuse⟩
  rintro ⟨-, hkept⟩
  obtain ⟨r, row, hr, hrow, hlive⟩ := hkept hquiet
  rw [hcookie] at hr
  cases hr
  rw [hrow] at hrevoked
  have htrue : row.revoked = true := by simpa using hrevoked
  rw [hlive] at htrue
  cases htrue

end AssetInventory.Portal

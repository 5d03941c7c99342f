import AssetInventory.Lib.Answers
import AssetInventory.Profiles.Implemented
import AssetInventory.Profiles.Writes

/-!
# The codes of new profiles

The code of a profile is made from the greatest one of its organisation and year, and the insert is tried
again with a new code when another transaction has taken it meanwhile.

* `nextCode_notMem`: the code that is made is not among those that the query has found.
* `tryCreate`, `createProfileOnRecord`: creation with a record of its attempts; `response_onRecord`: it is
  `createProfile`.
* `codesDiscipline`: a transaction that has inserted a profile holds the entry of the unique index.
* `codes_of_runs`: what holds of concurrent requests.
-/

namespace AssetInventory.Profiles

open PyJson PyTime Orm RowStore ReadCommitted Server Interleaving

/-! ## Codes -/

/-- A profile of the organisation has the code. -/
def HasCode (data : Data) (orgId : Uuid) (code : String) : Prop :=
  ∃ p row, data.profiles.get p = some row ∧ row.orgId = orgId ∧ row.code = code

/-- The codes of the profiles of an organisation. -/
def codesOf (data : Data) (orgId : Uuid) : List String :=
  (data.profiles.rowsWhere fun p => decide (p.orgId = orgId)).map fun x => x.2.code

/-- No two profiles of an organisation share a code. -/
def CodesDistinct (data : Data) : Prop :=
  ∀ p q row other, data.profiles.get p = some row → data.profiles.get q = some other →
    row.orgId = other.orgId → row.code = other.code → p = q

variable {orgId q : Uuid} {data d : Data}

theorem mem_codesOf {code : String} : code ∈ codesOf data orgId ↔ HasCode data orgId code := by
  rw [codesOf, List.mem_map]
  constructor
  · rintro ⟨⟨p, row⟩, hrow, rfl⟩
    obtain ⟨hget, horg⟩ := Table.mem_rowsWhere.mp hrow
    exact ⟨p, row, hget, of_decide_eq_true horg, rfl⟩
  · rintro ⟨p, row, hget, horg, rfl⟩
    exact ⟨(p, row), Table.mem_rowsWhere.mpr ⟨hget, decide_eq_true horg⟩, rfl⟩

theorem hasCode_of_taken {code : String}
    (h : profilesWithCode data orgId code ≠ []) : HasCode data orgId code := by
  obtain ⟨⟨p, row⟩, hrow⟩ := List.exists_mem_of_ne_nil _ h
  obtain ⟨hget, hboth⟩ := Table.mem_rowsWhere.mp hrow
  obtain ⟨horg, hcode⟩ := of_decide_eq_true hboth
  exact ⟨p, row, hget, horg, hcode⟩

theorem not_hasCode {code : String}
    (h : profilesWithCode data orgId code = []) : ¬ HasCode data orgId code := by
  rintro ⟨p, row, hget, horg, hcode⟩
  have hrow : (p, row) ∈ profilesWithCode data orgId code :=
    Table.mem_rowsWhere.mpr ⟨hget, decide_eq_true ⟨horg, hcode⟩⟩
  rw [h] at hrow
  exact absurd hrow List.not_mem_nil

/-- The running maximum of the numbers that are read is not less than any of them. -/
theorem le_foldl_max {α : Type} (read : α → Option ℤ) (l : List α) (seq : ℤ) :
    seq ≤ l.foldl (fun seq a => max seq ((read a).getD seq)) seq ∧
      ∀ a ∈ l, ∀ n, read a = some n → n ≤ l.foldl (fun seq a => max seq ((read a).getD seq)) seq := by
  induction l generalizing seq with
  | nil => exact ⟨le_rfl, fun _ h => absurd h List.not_mem_nil⟩
  | cons a l ih =>
    rw [List.foldl_cons]
    obtain ⟨hle, hrest⟩ := ih (max seq ((read a).getD seq))
    refine ⟨(le_max_left _ _).trans hle, fun b hb n hn => ?_⟩
    rcases List.mem_cons.mp hb with rfl | hmem
    · rw [hn, Option.getD_some] at hle ⊢
      exact (le_max_right _ _).trans hle
    · exact hrest b hmem n hn

/-- **The code that is made is new**: the number behind the prefix is read as it was written. -/
theorem nextCode_notMem (start : String) (codes : List String) :
    start ++ zeroPad 3 (greatestSeq start codes + 1) ∉ codes := by
  intro hmem
  obtain ⟨hzero, hle⟩ : 0 ≤ greatestSeq start codes ∧ ∀ code ∈ codes, ∀ n,
      intOf (dropPrefix start code) = some n → n ≤ greatestSeq start codes :=
    le_foldl_max (fun code => intOf (dropPrefix start code)) codes 0
  obtain ⟨n, hn⟩ := Int.eq_ofNat_of_zero_le (show 0 ≤ greatestSeq start codes + 1 by omega)
  have hread : intOf (dropPrefix start (start ++ zeroPad 3 (greatestSeq start codes + 1))) =
      some (greatestSeq start codes + 1) := by
    rw [dropPrefix_append, hn, intOf_zeroPad]
  have := hle _ hmem _ hread
  omega

/-- The codes of an organisation that begin with the prefix of the year. -/
def codesWith (data : Data) (orgId : Uuid) (start : String) : List String :=
  (data.profiles.rowsWhere fun p => decide (p.orgId = orgId) && startsWith start p.code).map
    fun x => x.2.code

/-- The code that is made at a time. -/
def nextCode (data : Data) (orgId : Uuid) (time : Time) : String :=
  let start := "HS-" ++ toString (civil (time / 1000000 / 86400)).1 ++ "-"
  start ++ zeroPad 3 (greatestSeq start (codesWith data orgId start) + 1)

theorem nextCode_notMem_codesOf (data : Data) (orgId : Uuid) (time : Time) :
    nextCode data orgId time ∉ codesOf data orgId := by
  rw [nextCode]
  generalize "HS-" ++ toString (civil (time / 1000000 / 86400)).1 ++ "-" = start
  intro hmem
  obtain ⟨p, row, hget, horg, hcode⟩ := mem_codesOf.mp hmem
  have hstarts : startsWith start row.code = true := hcode ▸ startsWith_append _ _
  have hwhere : (decide (row.orgId = orgId) && startsWith start row.code) = true := by
    rw [Bool.and_eq_true, decide_eq_true_iff]
    exact ⟨horg, hstarts⟩
  refine nextCode_notMem start (codesWith data orgId start) ?_
  rw [← hcode]
  exact List.mem_map.mpr ⟨(p, row), Table.mem_rowsWhere.mpr ⟨hget, hwhere⟩, rfl⟩

/-! ## Attempts on record -/

/-- An attempt to insert a profile. -/
structure Attempt where
  /-- The codes of the organisation, as the `SELECT` has found them. -/
  before : List String
  /-- The code that was made. -/
  code : String
  /-- The codes of the organisation, as the `INSERT` has found them. -/
  after : List String
  deriving DecidableEq

/-- What has come of the attempts. -/
inductive CreateEnd where
  | created (id : Uuid) (profile : SystemProfile)
  /-- The uniqueness error of the last attempt is raised. -/
  | taken
  /-- Another error is raised: the organisation is not there. -/
  | broken

/-- What the caller of `_create_profile_with_unique_code` gets. -/
def CreateEnd.result : CreateEnd → Except HttpError (Uuid × SystemProfile)
  | .created id profile => .ok (id, profile)
  | .taken => .error ⟨500, "Internal Server Error"⟩
  | .broken => .error ⟨500, "Internal Server Error"⟩

/-- `_create_profile_with_unique_code`, with its attempts. -/
def tryCreate (body : SystemProfileCreate) (creator : Uuid × User) :
    ℕ → Handler (CreateEnd × List Attempt)
  | 0 => return (.taken, [])
  | attempts + 1 => do
    let time ← now
    let (code, before) ← .select fun data =>
      (nextCode data body.orgId time, codesOf data body.orgId)
    let time ← now
    let id ← .fresh
    let profile := body.profile creator code time
    let data ← .update (.profileCode body.orgId code) fun data =>
      if admitsProfile data body.orgId code then [.newProfile id profile] else []
    let attempt : Attempt := ⟨before, code, codesOf data body.orgId⟩
    if admitsProfile data body.orgId code then return (.created id profile, [attempt])
    else if profilesWithCode data body.orgId code = [] then return (.broken, [attempt])
    else
      Prog.backtrack (.profileCode body.orgId code)
      let (ended, more) ← tryCreate body creator attempts
      return (ended, attempt :: more)

/-- **The attempts are those of the code.** -/
theorem result_tryCreate (body : SystemProfileCreate) (creator : Uuid × User) (attempts : ℕ) :
    (tryCreate body creator attempts >>= fun x => pure x.1.result) =
      createProfileWithUniqueCode body creator attempts := by
  induction attempts with
  | zero => rfl
  | succ attempts ih =>
    refine congrArg Prog.ask (funext fun e => congrArg Prog.read (funext fun d =>
      congrArg Prog.ask (funext fun e' => congrArg Prog.draw (funext fun id =>
        congrArg (Prog.write _ _) (funext fun data => ?_)))))
    change ((ite _ _ _ : Handler (CreateEnd × List Attempt)) >>= _) = ite _ _ _
    split
    · rename_i hadmits
      exact (if_pos hadmits).symm
    · rename_i hadmits
      refine Eq.trans ?_ (if_neg hadmits).symm
      split
      · rename_i hcode
        exact (if_pos hcode).symm
      · rename_i hcode
        refine Eq.trans (congrArg (Prog.unlock _) ?_) (if_neg hcode).symm
        rw [← ih]
        exact Prog.bind_assoc (tryCreate body creator attempts) (fun x => pure (x.1, _ :: x.2))
          fun x => pure x.1.result

/-- What `create_profile` answers, with a record of its attempts. -/
structure CreateAnswer where
  response : Except HttpError ProfileDetail
  /-- The request fails with the uniqueness error. -/
  taken : Bool
  attempts : List Attempt

/-- What `create_profile` does after its attempts. -/
def finishCreate (body : SystemProfileCreate) (admin : Uuid × User) :
    Except HttpError (Uuid × SystemProfile) → Handler (Except HttpError ProfileDetail)
  | .error e => return .error e
  | .ok (id, profile) => do
    let saved ← commitProfile id profile
      { profile with
        managedBy := body.managedBy
        documentNumber := body.documentNumber
        documentDate := body.documentDate }
      [("created", body.message)] [] admin
    if saved then syncProfile id else serverError

/-- `create_profile`, with its attempts. -/
def createProfileOnRecord (body : SystemProfileCreate) (caller : Option Uuid) :
    Handler CreateAnswer := do
  let admin ← requireAdmin caller
  match admin with
  | .error e => return ⟨.error e, false, []⟩
  | .ok admin =>
    if !isSuperAdmin admin.2 && decide (admin.2.orgId ≠ body.orgId) then
      return ⟨.error ⟨403, "Chỉ tạo hồ sơ cho đơn vị của bạn"⟩, false, []⟩
    else
      let (ended, attempts) ← tryCreate body admin 5
      let response ← finishCreate body admin ended.result
      return ⟨response, ended matches .taken, attempts⟩

/-- **The request on record is the request of the code.** -/
theorem response_onRecord (body : SystemProfileCreate) (caller : Option Uuid) :
    (createProfileOnRecord body caller >>= fun answer => pure answer.response) =
      createProfile body caller := by
  rw [createProfileOnRecord, Prog.bind_assoc, createProfile]
  refine congrArg (requireAdmin caller >>= ·) (funext fun admin => ?_)
  cases admin with
  | error e => rfl
  | ok admin =>
    dsimp only
    split
    · rfl
    · rw [← result_tryCreate, Prog.bind_assoc, Prog.bind_assoc]
      refine congrArg (tryCreate body admin 5 >>= ·) (funext fun x => ?_)
      refine (Prog.bind_assoc _ _ _).trans ?_
      refine (Prog.bind_pure (finishCreate body admin x.1.result)).trans ?_
      cases x.1.result with
      | error e => rfl
      | ok created => rfl

/-- The requests for new profiles. -/
def createHandler (request : SystemProfileCreate × Option Uuid) :
    Prog Data RowKey DataWrite Env (Entry Note CreateAnswer) Unit :=
  (createProfileOnRecord request.1 request.2).answering

/-! ## What the transactions agree on -/

/-- Every code was new at its query; a request that fails with the uniqueness error has tried five of them,
and every one was taken between its query and its insert. -/
structure CreateAnswer.Good (answer : CreateAnswer) : Prop where
  fresh : ∀ x ∈ answer.attempts, x.code ∉ x.before
  five : answer.taken = true → answer.attempts.length = 5
  overtaken : answer.taken = true → ∀ x ∈ answer.attempts, x.code ∈ x.after

/-- The entries of the unique index that a transaction holds stay its own, and nobody else takes the code. -/
def CodesKept (p : TxId) (s t : Store Data RowKey (Entry Note CreateAnswer)) : Prop :=
  ∀ orgId code, s.locks (.profileCode orgId code) = some p →
    t.locks (.profileCode orgId code) = some p ∧ (HasCode t.data orgId code → HasCode s.data orgId code)

theorem CodesKept.refl (p : TxId) (s : Store Data RowKey (Entry Note CreateAnswer)) : CodesKept p s s :=
  fun _ _ h => ⟨h, id⟩

/-- **Codes are distinct**, what is on record is good, and nobody takes a code that another one holds. -/
def codesDiscipline : Discipline Data RowKey DataWrite (Entry Note CreateAnswer) where
  Inv s := CodesDistinct s.data ∧ ∀ answer, Entry.answer answer ∈ s.events → answer.Good
  Rely := CodesKept
  Guar p s t := ∀ q, q ≠ p → CodesKept q s t
  Allowed _ _ _ := True
  rely_refl := CodesKept.refl
  rely_trans p s t u hst htu orgId code h := by
    obtain ⟨ht, hback⟩ := hst orgId code h
    obtain ⟨hu, hback'⟩ := htu orgId code ht
    exact ⟨hu, fun h => hback (hback' h)⟩
  rely_of_guar p q _ _ hq h := h q hq
  guar_refl _ s q _ := CodesKept.refl q s
  lock_ok p s row hinv hfree := by
    refine ⟨?_, fun q hq orgId code h => ?_⟩
    · rw [Store.data_lock, Store.events_lock]
      exact hinv
    · rw [Store.data_lock]
      refine ⟨?_, id⟩
      cases row with
      | none => exact h
      | some k =>
        have hk : RowKey.profileCode orgId code ≠ k := by
          rintro rfl
          rw [Option.all_some, Store.isFree, h, Option.all_some, decide_eq_true_iff] at hfree
          exact hq hfree
        exact (Function.update_of_ne hk _ _).trans h
  release_ok p s hinv := by
    refine ⟨hinv, fun q hq orgId code h => ⟨?_, id⟩⟩
    have hne : s.locks (.profileCode orgId code) ≠ some p := fun h' => hq (Option.some.inj (h.symm.trans h'))
    exact (if_neg hne).trans h
  unlock_ok p s row hinv := by
    refine ⟨hinv, fun q hq orgId code h => ⟨?_, id⟩⟩
    have hne : s.locks (.profileCode orgId code) ≠ some p := fun h' => hq (Option.some.inj (h.symm.trans h'))
    exact (if_neg fun hboth => hne hboth.2).trans h
  draw_ok p s hinv := ⟨hinv, fun q _ => CodesKept.refl q s⟩

/-- The write changes no code and makes no profile. -/
def DataWrite.KeepsCodes : DataWrite → Prop
  | .profile _ base cur => base.orgId = cur.orgId ∧ base.code = cur.code
  | .newProfile _ _ => False
  | _ => True

theorem keepsCodes_of_aside (w : DataWrite) (h : w.Aside) : w.KeepsCodes := by
  cases w <;> first | exact h.elim | trivial

theorem DataWrite.KeepsCodes.before {w : DataWrite} (hw : w.KeepsCodes)
    {row : SystemProfile} (h : (Applies.apply w d).profiles.get q = some row) :
    ∃ old, d.profiles.get q = some old ∧ old.orgId = row.orgId ∧ old.code = row.code := by
  cases w with
  | profile id base cur =>
    rcases Table.get_modify_cases h with ⟨rfl, old, hold, rfl⟩ | ⟨-, hold⟩
    · refine ⟨old, hold, ?_, ?_⟩
      · simp [SystemProfile.writeBack, pick, hw.1]
      · simp [SystemProfile.writeBack, pick, hw.2]
    · exact ⟨row, hold, rfl, rfl⟩
  | newProfile id new => exact hw.elim
  | deleteProfile id =>
    have hne : q ≠ id := by
      rintro rfl
      exact absurd (h.symm.trans (Table.get_erase_self _ _)) (by simp)
    exact ⟨row, (Table.get_erase_of_ne _ hne).symm.trans h, rfl, rfl⟩
  | _ => exact ⟨row, h, rfl, rfl⟩

theorem before_of_applyAll {ws : List DataWrite} (hws : ∀ w ∈ ws, w.KeepsCodes)
    {row : SystemProfile} (h : (applyAll ws d).profiles.get q = some row) :
    ∃ old, d.profiles.get q = some old ∧ old.orgId = row.orgId ∧ old.code = row.code := by
  induction ws generalizing d with
  | nil => exact ⟨row, h, rfl, rfl⟩
  | cons w ws ih =>
    obtain ⟨mid, hmid, horg, hcode⟩ := ih (fun v hv => hws v (List.mem_cons_of_mem _ hv)) h
    obtain ⟨old, hold, horg', hcode'⟩ := (hws w List.mem_cons_self).before hmid
    exact ⟨old, hold, horg'.trans horg, hcode'.trans hcode⟩

/-- The transaction has written a profile, holds its code, and nobody else has it. -/
structure Holds (p : TxId) (id : Uuid) (profile : SystemProfile) (ws : List DataWrite)
    (s : Store Data RowKey (Entry Note CreateAnswer)) : Prop where
  first : ∃ rest, ws = .newProfile id profile :: rest ∧ ∀ w ∈ rest, w.KeepsCodes
  locked : s.locks (.profileCode profile.orgId profile.code) = some p
  free : ¬ HasCode s.data profile.orgId profile.code

section Requests

variable {p : TxId} {s : Store Data RowKey (Entry Note CreateAnswer)} {id : Uuid}
  {profile : SystemProfile} {ws : List DataWrite} {note : List (Entry Note CreateAnswer)}

theorem stable_holds : Stable codesDiscipline p (Holds p id profile) where
  rely ws s t hst h := by
    obtain ⟨hlocked, hback⟩ := hst _ _ h.locked
    exact ⟨h.first, hlocked, fun ht => h.free (hback ht)⟩
  draw ws s h := ⟨h.first, h.locked, h.free⟩
  lock ws s row h := by
    refine ⟨h.first, ?_, by rw [Store.data_lock]; exact h.free⟩
    cases row with
    | none => exact h.locked
    | some k =>
      change Function.update s.locks k (some p) (.profileCode profile.orgId profile.code) = some p
      by_cases hk : RowKey.profileCode profile.orgId profile.code = k
      · rw [hk, Function.update_self]
      · rw [Function.update_of_ne hk]
        exact h.locked

theorem Holds.append {w : DataWrite} (hw : w.KeepsCodes) (h : Holds p id profile ws s) :
    Holds p id profile (ws ++ [w]) s := by
  obtain ⟨rest, rfl, hrest⟩ := h.first
  exact ⟨⟨rest ++ [w], rfl, List.forall_mem_append.mpr ⟨hrest, List.forall_mem_singleton.mpr hw⟩⟩,
    h.locked, h.free⟩

theorem locks_publish {q : TxId} (hq : q ≠ p) {k : RowKey} (h : s.locks k = some q) :
    (s.publish p ws note).locks k = some q :=
  (if_neg fun h' => hq (Option.some.inj (h.symm.trans h'))).trans h

theorem publish_keepsCodes (hws : ∀ w ∈ ws, w.KeepsCodes) (hinv : codesDiscipline.Inv s)
    (hnote : ∀ answer, Entry.answer answer ∈ note → answer.Good) :
    codesDiscipline.Inv (s.publish p ws note) ∧ codesDiscipline.Guar p s (s.publish p ws note) := by
  refine ⟨⟨fun a b row other ha hb horg hcode => ?_, fun answer h => ?_⟩, fun q hq orgId code h =>
    ⟨locks_publish hq h, ?_⟩⟩
  · obtain ⟨old, hold, horg₁, hcode₁⟩ := before_of_applyAll hws ha
    obtain ⟨old', hold', horg₂, hcode₂⟩ := before_of_applyAll hws hb
    exact hinv.1 a b old old' hold hold' (by rw [horg₁, horg₂, horg]) (by rw [hcode₁, hcode₂, hcode])
  · exact (List.mem_append.mp h).elim (hnote answer) (hinv.2 answer)
  · rintro ⟨a, row, ha, rfl, rfl⟩
    obtain ⟨old, hold, horg, hcode⟩ := before_of_applyAll hws ha
    exact ⟨a, old, hold, horg, hcode⟩

/-- **A commit of a new profile** whose code the transaction holds. -/
theorem publish_holds (h : Holds p id profile ws s) (hinv : codesDiscipline.Inv s)
    (hnote : ∀ answer, Entry.answer answer ∉ note) :
    codesDiscipline.Inv (s.publish p ws note) ∧ codesDiscipline.Guar p s (s.publish p ws note) := by
  obtain ⟨rest, rfl, hrest⟩ := h.first
  -- a profile afterwards is the new one or an old one
  have hback : ∀ a row, (s.view (.newProfile id profile :: rest)).profiles.get a = some row →
      (a = id ∧ profile.orgId = row.orgId ∧ profile.code = row.code) ∨
        ∃ old, s.data.profiles.get a = some old ∧ old.orgId = row.orgId ∧ old.code = row.code := by
    intro a row ha
    obtain ⟨mid, hmid, horg, hcode⟩ := before_of_applyAll hrest ha
    rcases Table.get_insert_cases hmid with ⟨rfl, rfl, -⟩ | hold
    · exact .inl ⟨rfl, horg, hcode⟩
    · exact .inr ⟨mid, hold, horg, hcode⟩
  refine ⟨⟨fun a b row other ha hb horg hcode => ?_, fun answer hmem => ?_⟩,
    fun q hq orgId code hlocked => ⟨locks_publish hq hlocked, ?_⟩⟩
  · rcases hback a row ha with ⟨rfl, horg₁, hcode₁⟩ | ⟨old, hold, horg₁, hcode₁⟩
    · rcases hback b other hb with ⟨rfl, -, -⟩ | ⟨old', hold', horg₂, hcode₂⟩
      · rfl
      · exact absurd ⟨b, old', hold', by rw [horg₂, horg₁, horg], by rw [hcode₂, hcode₁, hcode]⟩ h.free
    · rcases hback b other hb with ⟨rfl, horg₂, hcode₂⟩ | ⟨old', hold', horg₂, hcode₂⟩
      · exact absurd ⟨a, old, hold, by rw [horg₂, horg₁, horg], by rw [hcode₂, hcode₁, hcode]⟩ h.free
      · exact hinv.1 a b old old' hold hold' (by rw [horg₁, horg₂, horg]) (by rw [hcode₁, hcode₂, hcode])
  · exact (List.mem_append.mp hmem).elim (fun h' => absurd h' (hnote answer)) (hinv.2 answer)
  · rintro ⟨a, row, ha, rfl, rfl⟩
    rcases hback a row ha with ⟨rfl, horg, hcode⟩ | ⟨old, hold, horg, hcode⟩
    · -- the code is held by this transaction, not by the other one
      have hmine := h.locked
      rw [horg, hcode, hlocked] at hmine
      exact absurd (Option.some.inj hmine) hq
    · exact ⟨a, old, hold, horg, hcode⟩

/-- How the attempts end: nothing is pending after those that fail. -/
def TriedTo (p : TxId) (attempts : ℕ) (x : CreateEnd × List Attempt) (ws : List DataWrite)
    (t : Store Data RowKey (Entry Note CreateAnswer)) : Prop :=
  (∀ a ∈ x.2, a.code ∉ a.before) ∧
    match x.1 with
    | .created id profile => Holds p id profile ws t
    | .taken => ws = [] ∧ x.2.length = attempts ∧ ∀ a ∈ x.2, a.code ∈ a.after
    | .broken => ws = []

/-- **The attempts**: what is inserted has a code that nobody has at the time and nobody takes afterwards. -/
theorem safe_tryCreate (body : SystemProfileCreate) (creator : Uuid × User) (attempts : ℕ) :
    ((tryCreate body creator attempts).mapNote Entry.note).Safe codesDiscipline p (TriedTo p attempts)
      [] s := by
  induction attempts generalizing s with
  | zero =>
    exact ⟨List.forall_mem_nil _, rfl, rfl, List.forall_mem_nil _⟩
  | succ attempts ih =>
    refine fun _ e _ _ => fun u _ _ => fun _ e' _ _ => fun v _ _ => fun w _ _ _ => ?_
    have hfresh : nextCode u.data body.orgId e.now ∉ codesOf u.data body.orgId :=
      nextCode_notMem_codesOf u.data body.orgId e.now
    change (Prog.mapNote Entry.note (ite (admitsProfile w.data body.orgId
        (nextCode u.data body.orgId e.now) = true) _ _)).Safe codesDiscipline p _
      (ite (admitsProfile w.data body.orgId (nextCode u.data body.orgId e.now) = true) _ _)
      (w.lock p (some (.profileCode body.orgId (nextCode u.data body.orgId e.now))))
    by_cases hadmits : admitsProfile w.data body.orgId (nextCode u.data body.orgId e.now) = true
    · rw [if_pos hadmits, if_pos hadmits]
      rw [admitsProfile, Bool.and_eq_true, decide_eq_true_iff] at hadmits
      refine ⟨List.forall_mem_singleton.mpr hfresh, ⟨[], rfl, List.forall_mem_nil _⟩, ?_, ?_⟩
      · exact Function.update_self (RowKey.profileCode body.orgId (nextCode u.data body.orgId e.now))
          (some p) w.locks
      · exact not_hasCode hadmits.1
    · rw [if_neg hadmits, if_neg hadmits]
      change (Prog.mapNote Entry.note (ite (profilesWithCode w.data body.orgId
        (nextCode u.data body.orgId e.now) = []) _ _)).Safe codesDiscipline p _ _ _
      split
      · exact ⟨List.forall_mem_singleton.mpr hfresh, rfl⟩
      · rename_i hcode
        have htaken : nextCode u.data body.orgId e.now ∈ codesOf w.data body.orgId :=
          mem_codesOf.mpr (hasCode_of_taken hcode)
        -- the lock of the code ends, and the rest of the attempts follows
        intro t _ _
        change ((tryCreate body creator attempts >>= fun x => pure (x.1, _ :: x.2)).mapNote
          Entry.note).Safe codesDiscipline p _ _ _
        rw [Prog.mapNote_bind]
        refine ih.bind fun x ws t' hx => ?_
        obtain ⟨ended, more⟩ := x
        obtain ⟨hall, hend⟩ := hx
        refine ⟨List.forall_mem_cons.mpr ⟨hfresh, hall⟩, ?_⟩
        cases ended with
        | created id profile => exact hend
        | taken =>
          obtain ⟨hws, hlength, hafter⟩ := hend
          exact ⟨hws, congrArg Nat.succ hlength, List.forall_mem_cons.mpr ⟨htaken, hafter⟩⟩
        | broken => exact hend

theorem safe_finishCreate (body : SystemProfileCreate) (admin : Uuid × User)
    (h : Holds p id profile ws s) :
    ((finishCreate body admin (.ok (id, profile))).mapNote Entry.note).Safe codesDiscipline p anyEnd
      ws s := by
  have hbroken : ∀ {ws t}, ((serverError : Handler (Except HttpError ProfileDetail)).mapNote
      Entry.note).Safe codesDiscipline p anyEnd ws t := trivial
  have hflush := (@only_flushProfile DataWrite.KeepsCodes (fun _ => False) id profile
    { profile with
      managedBy := body.managedBy
      documentNumber := body.documentNumber
      documentDate := body.documentDate } ⟨rfl, rfl⟩).mapNote_silent
        (Entry.note : Note → Entry Note CreateAnswer)
  have hlog := (only_logEvents (B := fun _ => False) keepsCodes_of_aside id admin
    [("created", body.message)]).mapNote_silent (Entry.note : Note → Entry Note CreateAnswer)
  have hsync := (only_syncProfile (B := fun note => note = []) keepsCodes_of_aside id rfl).mapNote
    (Entry.note : Note → Entry Note CreateAnswer)
  have hrest : ∀ {t}, ((syncProfile id).mapNote Entry.note).Safe codesDiscipline p anyEnd [] t := by
    intro t
    refine (hsync.safe_of_all ?_ (List.forall_mem_nil _)).mono fun _ _ _ _ => trivial
    rintro ws u _ ⟨_, rfl, rfl⟩ hinv hws -
    exact publish_keepsCodes hws hinv fun _ hmem => absurd hmem List.not_mem_nil
  have hsaved : ((commitProfile id profile { profile with
      managedBy := body.managedBy
      documentNumber := body.documentNumber
      documentDate := body.documentDate } [("created", body.message)] [] admin).mapNote
        Entry.note).Safe codesDiscipline p (fun saved ws _ => saved = true → ws = []) ws s := by
    rw [commitProfile, Prog.mapNote_bind]
    refine stable_holds.bind (fun _ _ _ hw h => h.append hw) hflush h fun found ws t _ ht => ?_
    cases found with
    | false => exact fun h => by cases h
    | true =>
      rw [if_pos rfl, Prog.mapNote_bind]
      refine stable_holds.bind (fun _ _ _ hw h => h.append hw) hlog ht fun logged ws t _ ht => ?_
      cases logged with
      | false => exact fun h => by cases h
      | true =>
        intro u htu hinv _
        have hnote : ∀ answer, Entry.answer answer ∉ ([] : List (Entry Note CreateAnswer)) :=
          fun _ => List.not_mem_nil
        obtain ⟨hkept, hguar⟩ := publish_holds (stable_holds.rely _ _ _ htu ht) hinv hnote
        exact ⟨hkept, hguar, fun _ => rfl⟩
  rw [finishCreate, Prog.mapNote_bind]
  refine hsaved.bind fun saved ws t hws => ?_
  cases saved with
  | false => exact hbroken
  | true =>
    rw [hws rfl]
    exact hrest

/-- **A request on record** keeps to what is agreed on, and its record is good. -/
theorem safe_createProfileOnRecord (body : SystemProfileCreate) (caller : Option Uuid) :
    ((createProfileOnRecord body caller).mapNote Entry.note).Safe codesDiscipline p
      (fun answer _ _ => answer.Good) [] s := by
  have hno : ∀ {response}, CreateAnswer.Good ⟨response, false, []⟩ := by
    intro response
    exact ⟨List.forall_mem_nil _, nofun, nofun⟩
  have hadmin : ((requireAdmin caller).mapNote Entry.note).Only (fun _ => False)
      (fun _ : List (Entry Note CreateAnswer) => False) fun _ => True :=
    (Callers.only_requireRole Data.users Callers.adminRoles _ caller).mapNote_silent Entry.note
  rw [createProfileOnRecord, Prog.mapNote_bind]
  refine hadmin.bind_safe fun admin t _ => ?_
  cases admin with
  | error e => exact hno
  | ok admin =>
    dsimp only
    split
    · exact hno
    · rw [Prog.mapNote_bind]
      refine (safe_tryCreate body admin 5).bind fun x ws u hx => ?_
      obtain ⟨ended, attempts⟩ := x
      obtain ⟨hfresh, hend⟩ := hx
      dsimp only
      rw [Prog.mapNote_bind]
      cases ended with
      | created id profile =>
        refine (safe_finishCreate body admin hend).bind fun response _ _ _ => ?_
        exact ⟨hfresh, nofun, nofun⟩
      | taken => exact ⟨hfresh, fun _ => hend.2.1, fun _ => hend.2.2⟩
      | broken => exact ⟨hfresh, nofun, nofun⟩

theorem safe_createHandler (request : SystemProfileCreate × Option Uuid) :
    (createHandler request).Safe codesDiscipline p anyEnd [] s := by
  refine safe_answering (safe_createProfileOnRecord request.1 request.2) ?_
  intro answer ws t u hgood _ _ v _ hinv _
  refine publish_keepsCodes (List.forall_mem_nil _) hinv fun other hother => ?_
  obtain rfl := Entry.answer.inj (List.mem_singleton.mp hother)
  exact hgood

end Requests

/-! ## Concurrent requests -/

/-- **Codes of concurrent requests.**  Two profiles of an organisation have different codes; every code
that was made is new at its query; a request fails with the uniqueness error only if each of five codes was
taken between its query and its insert; and what a transaction has written before its attempts stays, with
the new profile or without. -/
theorem codes_of_runs {s : Store Data RowKey (Entry Note CreateAnswer)} (hs : CodesDistinct s.data)
    (hrecord : s.events = []) {g : Engine Data RowKey DataWrite Env (Entry Note CreateAnswer)}
    (hrun : Runs (Engine.step createHandler) anyAction (Engine.start s) g) :
    CodesDistinct g.store.data ∧ (∀ answer, Entry.answer answer ∈ g.store.events →
      (∀ x ∈ answer.attempts, x.code ∉ x.before) ∧ (answer.taken = true →
        answer.attempts.length = 5 ∧ ∀ x ∈ answer.attempts, x.code ∉ x.before ∧ x.code ∈ x.after)) ∧
    ∀ (R : Discipline Data RowKey DataWrite Note) (p : TxId) (body : SystemProfileCreate)
      (creator : Uuid × User) (attempts : ℕ) (pending : List DataWrite) (t : Store Data RowKey Note),
      (createProfileWithUniqueCode body creator attempts).Safe R p (fun result ws _ =>
          (∃ e, result = .error e ∧ ws = pending) ∨
          ∃ id code time, result = .ok (id, body.profile creator code time) ∧
            ws = pending ++ [.newProfile id (body.profile creator code time)]) pending t := by
  have hstart : AllSafe codesDiscipline
      (Engine.start s : Engine Data RowKey DataWrite Env (Entry Note CreateAnswer)) := by
    refine allSafe_start ⟨hs, fun answer h => ?_⟩
    rw [hrecord] at h
    exact absurd h List.not_mem_nil
  have hguarded := hrun.mono (H := codesDiscipline.Permits) fun g op _ =>
    Discipline.permits_of_always (fun _ _ _ => trivial) (fun _ _ _ => trivial) g op
  obtain ⟨hcodes, hgood⟩ := invariant_of_runs (fun p request s _ => safe_createHandler request) hstart hguarded
  refine ⟨hcodes, fun answer hanswer => ⟨(hgood answer hanswer).fresh, fun htaken => ?_⟩,
    fun R p body creator attempts pending t => safe_createProfileWithUniqueCode body creator attempts pending t⟩
  exact ⟨(hgood answer hanswer).five htaken, fun x hx =>
    ⟨(hgood answer hanswer).fresh x hx, (hgood answer hanswer).overtaken htaken x hx⟩⟩

/-- There are no profiles yet. -/
def exampleStore : Store Data RowKey (Entry Note CreateAnswer) :=
  ⟨exampleProfiles.data, fun _ => none, [0, 0, 0, 0], []⟩

/-- The first request is served while the second one has made the same code. -/
def exampleRace : List (Op (SystemProfileCreate × Option Uuid) Env) :=
  let run (p : TxId) (n : ℕ) := List.replicate n (Op.run p (exampleAnswers 0))
  [.begin 0 (exampleCreate, some 1), .begin 1 (exampleCreate, some 1)] ++ run 0 3 ++ run 1 3 ++ run 0 26 ++
    run 1 32

theorem codes_of_race : ∃ g, Runs (Engine.step createHandler) anyAction (Engine.start exampleStore) g ∧
    codesOf g.store.data 0 = ["HS-1970-001", "HS-1970-002"] ∧ CodesDistinct g.store.data := by
  obtain ⟨g, hrun, hcodes⟩ := exists_runs_of_exec (G := anyAction) (Engine.step createHandler)
    (Engine.start exampleStore) exampleRace
    (p := fun g => decide (codesOf g.store.data 0 = ["HS-1970-001", "HS-1970-002"])) (by decide +kernel)
  have hstart : CodesDistinct exampleStore.data := fun p q row other hp => by cases hp
  exact ⟨g, hrun, of_decide_eq_true hcodes, (codes_of_runs hstart rfl hrun).1⟩

end AssetInventory.Profiles

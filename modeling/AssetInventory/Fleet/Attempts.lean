import AssetInventory.Fleet.Portal
import AssetInventory.Fleet.Writes
import AssetInventory.Lib.Answers
import AssetInventory.Lib.Noting
import AssetInventory.Lib.Numbers

/-!
# Attempts to enroll

A machine that is refused tries again every minute.  A refused request looks for a pending attempt of the
same machine and token status of the last 24 hours and refreshes it, or adds one.  An attempt that is added
gets the default of its column, which was computed when the class was defined; only a refresh gives it the
time at which it happened.

* `refusal`: a refused request, with what it announces; `refuse_eq`: it does what `refuse` does.
* `Deduplicated`: what is expected of the attempts.
* `InTurn`: the condition on the commits.
* `attemptDiscipline`: what requests rely on each other for.
* `deduplicated_of_runs`: a run whose commits all meet the condition keeps the attempts deduplicated.
-/

namespace AssetInventory.Fleet

open PyJson PyTime Orm RowStore ReadCommitted Server Interleaving

/-! ## Requests -/

/-- A request that is refused at its token. -/
structure RefusedRequest where
  tokenStr : String
  tokenStatus : Refusal
  tokenRow : Option (Uuid × EnrollToken)
  hostname : Option String
  fingerprint : Fingerprint
  ip : Option String

/-- What is on record. -/
inductive AttemptNote where
  /-- A commit has recorded an attempt. -/
  | recorded (r : Recorded)
  /-- A request has found several attempts, after it has read the clock. -/
  | raised (machineUuid : String) (tokenStatus : Refusal) (time : Time)
  deriving DecidableEq

/-- Programs that announce what becomes of the attempts. -/
abbrev AttemptHandler := Prog Data RowKey DataWrite Env AttemptNote

/-- A refused request up to its answer. -/
def refusal (I : Identification) (r : RefusedRequest) : AttemptHandler (Except RecordFailure Recorded) := do
  let result ← (recordEnrollAttempt I r.tokenStr r.tokenStatus r.tokenRow r.hostname r.fingerprint
    r.ip).noting fun _ => []
  match result with
  | .error e => return .error e
  | .ok recorded =>
    .publish [.recorded recorded]
    return .ok recorded

/-- The answer to a refused request. -/
def refusalAnswer {α : Type} (detail : String) : Except RecordFailure Recorded → Handler (Except HttpError α)
  | .error _ => serverError
  | .ok _ => httpError 401 detail

/-- **A refusal**, with its answer, is what `refuse` does. -/
theorem refuse_eq {α : Type} (I : Identification) (r : RefusedRequest) (detail : String) :
    ((refusal I r).noting (fun _ => []) >>= refusalAnswer detail : Handler (Except HttpError α)) =
      refuse I r.tokenStr r.tokenStatus r.tokenRow r.hostname r.fingerprint r.ip detail := by
  have hsilent : (recordEnrollAttempt I r.tokenStr r.tokenStatus r.tokenRow r.hostname r.fingerprint
      r.ip).Only (fun _ => True) (fun _ => False) (fun _ => True) :=
    only_recordEnrollAttempt I (fun _ _ => trivial) _ _ _ _ _ _
  rw [refusal, Prog.noting_bind, hsilent.noting_noting, Prog.bind_assoc, refuse]
  refine congrArg (Prog.bind _) (funext fun result => ?_)
  cases result with
  | error e => rfl
  | ok recorded => rfl

/-- `perform_enroll` marks an expired token in the transaction of the refusal. -/
def markExpired (r : RefusedRequest) : Handler Unit :=
  match r.tokenStatus, r.tokenRow with
  | .expired, some (id, token) => flushToken id token { token with status := .expired }
  | _, _ => return ()

/-- What the administrators decide, and what machines are refused. -/
inductive AttemptRequest where
  | refused (r : RefusedRequest)
  | approve (attemptId : Uuid) (note : Option String) (caller : Option Uuid)
  | reject (attemptId : Uuid) (note : Option String) (caller : Option Uuid)

variable (c : PortalSettings)

/-- The program of a request; an exception is put on record after the end of the session. -/
def attemptRoute : AttemptRequest → AttemptHandler Unit
  | .refused r => do
    (markExpired r).noting fun _ => []
    let result ← refusal c.fleet.identification r
    match result with
    | .error (.attempts machineUuid tokenStatus time) =>
      .undo
      .publish [.raised machineUuid tokenStatus time]
    | _ => return ()
  | .approve attemptId note caller => do
    let _ ← (approveAttempt c attemptId note caller).noting fun _ => []
  | .reject attemptId note caller => do
    let _ ← (rejectAttempt attemptId note caller).noting fun _ => []

/-- Requests at once. -/
abbrev attemptStep : Engine Data RowKey DataWrite Env AttemptNote → Op AttemptRequest Env →
      Option (Engine Data RowKey DataWrite Env AttemptNote) :=
  Engine.step (attemptRoute c)

/-! ## What is expected -/

/-- 24 hours. -/
def aDay : ℤ := minutes (24 * 60)

/-- What attempts are told apart by. -/
def EnrollAttempt.key (a : EnrollAttempt) : String × Refusal := (a.machineUuid, a.tokenStatus)

/-- What attempts are told apart by. -/
def Recorded.key (r : Recorded) : String × Refusal := (r.machineUuid, r.tokenStatus)

/-- What has been recorded, the newest first. -/
def recordedOf (events : List AttemptNote) : List Recorded :=
  events.filterMap fun
    | .recorded r => some r
    | .raised _ _ _ => none

/-- When an attempt was last added or refreshed. -/
def lastTime (id : Uuid) (events : List AttemptNote) : Option Time :=
  ((recordedOf events).find? fun r => decide (r.attempt = id)).map Recorded.time

/-- What has been recorded since then. -/
def recordedSince (id : Uuid) (events : List AttemptNote) : List Recorded :=
  (recordedOf events).takeWhile fun r => decide (r.attempt ≠ id)

/-- The latest refresh of the attempt lies within the 24 hours before a time. -/
def RefreshedWithin (events : List AttemptNote) (id : Uuid) (time : Time) : Prop :=
  ∃ t, lastTime id events = some t ∧ time - aDay ≤ t ∧ t ≤ time

/-- **What is expected of the attempts.** -/
structure Deduplicated (s : Store Data RowKey AttemptNote) : Prop where
  /-- At every time, at most one of the pending attempts of a machine and a token status has been refreshed
  within 24 hours. -/
  one : ∀ time id id' a a', s.data.attempts.get id = some a → s.data.attempts.get id' = some a' →
    a.key = a'.key → a.status = .pending → a'.status = .pending →
    RefreshedWithin s.events id time → RefreshedWithin s.events id' time → id = id'
  /-- Whoever has tried again within 24 hours of the last time has not added another attempt. -/
  retry : ∀ id a t, s.data.attempts.get id = some a → a.status = .pending →
    lastTime id s.events = some t → ∀ r ∈ recordedSince id s.events, r.key = a.key → r.added = true →
    t + aDay < r.time
  /-- Nobody has found several attempts. -/
  calm : ∀ machineUuid tokenStatus time, .raised machineUuid tokenStatus time ∉ s.events

/-! ## The condition -/

/-- The pending attempts of a machine and a token status. -/
def openAttempts (data : Data) (key : String × Refusal) : List (Uuid × EnrollAttempt) :=
  data.attempts.rowsWhere fun a => decide (a.key = key ∧ a.status = .pending)

/-- No refused request of the same machine and token status that read the clock later is over, and the class
was defined before. -/
def NotOvertaken (definedAt : Time) (events : List AttemptNote) (key : String × Refusal) (time : Time) :
    Prop :=
  definedAt ≤ time ∧ ∀ r ∈ recordedOf events, r.key = key → r.time ≤ time

/-- An attempt that is added: there is still none that its query would find; and if one is pending that was
added within 24 hours and not refreshed, then the class was defined within 24 hours. -/
def StillNew (definedAt : Time) (s : Store Data RowKey AttemptNote) (r : Recorded) : Prop :=
  ∀ x ∈ openAttempts s.data r.key, x.2.createdAt < r.time - aDay ∧
    (x.2.createdAt = definedAt → (lastTime x.1 s.events).any (fun t => decide (r.time - aDay ≤ t)) = true →
      r.time - aDay ≤ definedAt)

instance (definedAt : Time) (events : List AttemptNote) (key : String × Refusal) (time : Time) :
    Decidable (NotOvertaken definedAt events key time) := by
  unfold NotOvertaken
  infer_instance

instance (definedAt : Time) (s : Store Data RowKey AttemptNote) (r : Recorded) :
    Decidable (StillNew definedAt s r) := by
  unfold StillNew
  infer_instance

/-- The condition on what a commit announces. -/
def AttemptNote.InTurn (definedAt : Time) (s : Store Data RowKey AttemptNote) : AttemptNote → Prop
  | .recorded r => NotOvertaken definedAt s.events r.key r.time ∧ (r.added = true → StillNew definedAt s r)
  | .raised machineUuid tokenStatus time =>
    NotOvertaken definedAt s.events (machineUuid, tokenStatus) time

instance (definedAt : Time) (s : Store Data RowKey AttemptNote) :
    (n : AttemptNote) → Decidable (n.InTurn definedAt s)
  | .recorded r => inferInstanceAs (Decidable
      (NotOvertaken definedAt s.events r.key r.time ∧ (r.added = true → StillNew definedAt s r)))
  | .raised machineUuid tokenStatus time => inferInstanceAs (Decidable
      (NotOvertaken definedAt s.events (machineUuid, tokenStatus) time))

/-- **The condition on a commit.** -/
def InTurn (definedAt : Time) (s : Store Data RowKey AttemptNote) (_ : List DataWrite)
    (note : List AttemptNote) : Prop :=
  ∀ n ∈ note, n.InTurn definedAt s

instance (definedAt : Time) (s : Store Data RowKey AttemptNote) (ws : List DataWrite)
    (note : List AttemptNote) : Decidable (InTurn definedAt s ws note) := by
  unfold InTurn
  infer_instance

/-! ## The record -/

section Record

variable {r : Recorded} {events : List AttemptNote} {id : Uuid}

@[simp] theorem recordedOf_cons : recordedOf (.recorded r :: events) = r :: recordedOf events := rfl

theorem lastTime_cons : lastTime id (.recorded r :: events) =
    if r.attempt = id then some r.time else lastTime id events := by
  rw [lastTime, recordedOf_cons, List.find?_cons]
  split_ifs with hid
  · simp [hid]
  · simp [hid, lastTime]

theorem recordedSince_cons : recordedSince id (.recorded r :: events) =
    if r.attempt = id then [] else r :: recordedSince id events := by
  rw [recordedSince, recordedOf_cons, List.takeWhile_cons]
  split_ifs with hid hne <;> simp_all [recordedSince]

theorem exists_of_lastTime {t : Time} (h : lastTime id events = some t) :
    ∃ r ∈ recordedOf events, r.attempt = id ∧ r.time = t := by
  obtain ⟨r, hr, ht⟩ := Option.map_eq_some_iff.mp h
  exact ⟨r, List.mem_of_find?_eq_some hr, by simpa using List.find?_some hr, ht⟩

end Record

/-- **What the requests keep.** -/
structure Tidy (definedAt : Time) (data : Data) (events : List AttemptNote) : Prop where
  /-- An attempt has the time of its last refresh, or else the default. -/
  dated : ∀ id a, data.attempts.get id = some a → ∃ t, lastTime id events = some t ∧ a.createdAt ≤ t ∧
    (a.createdAt = definedAt ∨ a.createdAt = t)
  /-- What has been recorded is there. -/
  known : ∀ r ∈ recordedOf events, ∃ a, data.attempts.get r.attempt = some a ∧ a.key = r.key
  apart : ∀ id id' a a' t t', data.attempts.get id = some a → data.attempts.get id' = some a' →
    a.key = a'.key → a.status = .pending → a'.status = .pending → id ≠ id' →
    lastTime id events = some t → lastTime id' events = some t' → t + aDay < t' ∨ t' + aDay < t
  retry : ∀ id a t, data.attempts.get id = some a → a.status = .pending → lastTime id events = some t →
    ∀ r ∈ recordedSince id events, r.key = a.key → r.added = true → t + aDay < r.time
  calm : ∀ machineUuid tokenStatus time, .raised machineUuid tokenStatus time ∉ events

variable {definedAt : Time} {data data' : Data} {events : List AttemptNote}

theorem Tidy.deduplicated {s : Store Data RowKey AttemptNote} (h : Tidy definedAt s.data s.events) :
    Deduplicated s where
  one := by
    rintro time id id' a a' ha ha' hkey hpending hpending' ⟨t, ht, hfrom, hto⟩ ⟨t', ht', hfrom', hto'⟩
    by_contra hne
    rcases h.apart id id' a a' t t' ha ha' hkey hpending hpending' hne ht ht' with hlt | hlt
    · linarith
    · linarith
  retry := h.retry
  calm := h.calm

/-! ## Writes -/

section Writes

variable {d d' d'' : Data} {w : DataWrite} {ws : List DataWrite}

/-- A write that concerns no attempt. -/
def DataWrite.SparesAttempts : DataWrite → Prop
  | .attempt _ _ _ => False
  | .newAttempt _ _ => False
  | _ => True

theorem attempts_apply (h : w.SparesAttempts) : (Applies.apply w d).attempts = d.attempts := by
  cases w <;> first | rfl | exact h.elim

theorem attempts_applyAll (h : ∀ w ∈ ws, w.SparesAttempts) : (applyAll ws d).attempts = d.attempts :=
  applyAll_invariant (P := fun d' => d'.attempts = d.attempts)
    (fun w hw _ hd => (attempts_apply (h w hw)).trans hd) rfl

/-- Attempts have been decided at most: none has been added, and none is pending again. -/
structure Decided (d d' : Data) : Prop where
  back : ∀ id a', d'.attempts.get id = some a' → ∃ a, d.attempts.get id = some a ∧
    a'.key = a.key ∧ a'.createdAt = a.createdAt ∧ (a'.status = .pending → a.status = .pending)
  forth : ∀ id a, d.attempts.get id = some a → ∃ a', d'.attempts.get id = some a' ∧
    a'.key = a.key ∧ a'.createdAt = a.createdAt

theorem Decided.of_eq (h : d'.attempts = d.attempts) : Decided d d' where
  back _ a' ha' := ⟨a', h ▸ ha', rfl, rfl, fun hp => hp⟩
  forth _ a ha := ⟨a, h ▸ ha, rfl, rfl⟩

theorem Decided.trans (h : Decided d d') (h' : Decided d' d'') : Decided d d'' where
  back id a'' ha'' := by
    obtain ⟨a', ha', hkey', hcreated', hstatus'⟩ := h'.back id a'' ha''
    obtain ⟨a, ha, hkey, hcreated, hstatus⟩ := h.back id a' ha'
    exact ⟨a, ha, hkey'.trans hkey, hcreated'.trans hcreated, fun hp => hstatus (hstatus' hp)⟩
  forth id a ha := by
    obtain ⟨a', ha', hkey, hcreated⟩ := h.forth id a ha
    obtain ⟨a'', ha'', hkey', hcreated'⟩ := h'.forth id a' ha'
    exact ⟨a'', ha'', hkey'.trans hkey, hcreated'.trans hcreated⟩

/-- A write of a decision. -/
def DataWrite.Decides : DataWrite → Prop
  | .attempt _ base cur => cur.key = base.key ∧ cur.createdAt = base.createdAt ∧ cur.status ≠ .pending
  | .newAttempt _ _ => False
  | _ => True

variable {base cur stored a row : EnrollAttempt}

theorem EnrollAttempt.key_writeBack (h : cur.key = base.key) :
    (writeBack base cur stored).key = stored.key := by
  obtain ⟨hmachine, hstatus⟩ := Prod.mk.inj h
  refine Prod.ext ?_ ?_
  · exact (congrArg (pick base.machineUuid · stored.machineUuid) hmachine).trans (pick_same _ _)
  · exact (congrArg (pick base.tokenStatus · stored.tokenStatus) hstatus).trans (pick_same _ _)

theorem Decided.of_decides (h : w.Decides) (d : Data) : Decided d (Applies.apply w d) := by
  cases w with
  | attempt id base cur =>
    obtain ⟨hkey, hcreated, hstatus⟩ := h
    have hback : ∀ stored : EnrollAttempt, (EnrollAttempt.writeBack base cur stored).key = stored.key ∧
        (EnrollAttempt.writeBack base cur stored).createdAt = stored.createdAt ∧
        ((EnrollAttempt.writeBack base cur stored).status = .pending → stored.status = .pending) := by
      intro stored
      refine ⟨EnrollAttempt.key_writeBack hkey, ?_, fun hpending => ?_⟩
      · exact (congrArg (pick base.createdAt · stored.createdAt) hcreated).trans (pick_same _ _)
      · change pick base.status cur.status stored.status = .pending at hpending
        rcases pick_cases base.status cur.status stored.status with ⟨-, hstored⟩ | ⟨-, hcur⟩
        · exact hstored.symm.trans hpending
        · exact absurd (hcur.symm.trans hpending) hstatus
    constructor
    · intro other a' ha'
      rcases Table.get_modify_cases ha' with ⟨rfl, a, ha, rfl⟩ | ⟨-, ha⟩
      · exact ⟨a, ha, hback a⟩
      · exact ⟨a', ha, rfl, rfl, fun hp => hp⟩
    · intro other a ha
      by_cases hother : other = id
      · subst hother
        refine ⟨EnrollAttempt.writeBack base cur a, ?_, (hback a).1, (hback a).2.1⟩
        exact (Table.get_modify_self _ _ _).trans (congrArg (Option.map _) ha)
      · exact ⟨a, (Table.get_modify_of_ne _ _ hother).trans ha, rfl, rfl⟩
  | newAttempt id row => exact h.elim
  | _ => exact .of_eq rfl

theorem decided_applyAll (h : ∀ w ∈ ws, w.Decides) (d : Data) : Decided d (applyAll ws d) :=
  applyAll_invariant (P := Decided d) (fun w hw d' hd => hd.trans (.of_decides (h w hw) d')) (.of_eq rfl)

end Writes

/-! ## Commits -/

section Commits

variable {r : Recorded}

/-- The last time of an attempt is not after the clock of a request in turn. -/
theorem NotOvertaken.lastTime_le {a : EnrollAttempt} (h : NotOvertaken definedAt events r.key r.time)
    (htidy : Tidy definedAt data events) {id : Uuid} {t : Time}
    (ha : data.attempts.get id = some a) (hkey : a.key = r.key) (ht : lastTime id events = some t) :
    t ≤ r.time := by
  obtain ⟨r', hr', rfl, rfl⟩ := exists_of_lastTime ht
  obtain ⟨a', ha', hkey'⟩ := htidy.known r' hr'
  rw [ha] at ha'
  cases ha'
  exact h.2 r' hr' (hkey'.symm.trans hkey)

/-- **An attempt is recorded**, more than 24 hours after any other pending one of the same machine and token
status. -/
theorem Tidy.record {cur : EnrollAttempt} (h : Tidy definedAt data events)
    (hself : data'.attempts.get r.attempt = some cur)
    (hothers : ∀ id ≠ r.attempt, data'.attempts.get id = data.attempts.get id)
    (hkey : cur.key = r.key) (hbefore : ∀ a, data.attempts.get r.attempt = some a → a.key = r.key)
    (hdated : cur.createdAt ≤ r.time ∧ (cur.createdAt = definedAt ∨ cur.createdAt = r.time))
    (hapart : cur.status = .pending ∨ r.added = true → ∀ id a t, id ≠ r.attempt →
      data.attempts.get id = some a → a.key = r.key → a.status = .pending → lastTime id events = some t →
      t + aDay < r.time) : Tidy definedAt data' (.recorded r :: events) where
  dated := by
    intro id a ha
    rw [lastTime_cons]
    by_cases hid : id = r.attempt
    · subst hid
      rw [hself] at ha
      cases ha
      exact ⟨r.time, if_pos rfl, hdated⟩
    · rw [hothers id hid] at ha
      rw [if_neg (Ne.symm hid)]
      exact h.dated id a ha
  known := by
    intro r' hr'
    by_cases hid : r'.attempt = r.attempt
    · rw [hid]
      refine ⟨cur, hself, hkey.trans ?_⟩
      rcases List.mem_cons.mp hr' with rfl | hr'
      · rfl
      · obtain ⟨a, ha, hakey⟩ := h.known r' hr'
        rw [hid] at ha
        exact (hbefore a ha).symm.trans hakey
    · rw [hothers _ hid]
      rcases List.mem_cons.mp hr' with rfl | hr'
      · exact absurd rfl hid
      · exact h.known r' hr'
  apart := by
    intro id id' a a' t t' ha ha' hsame hpending hpending' hne ht ht'
    rw [lastTime_cons] at ht ht'
    by_cases hid : r.attempt = id
    · subst hid
      rw [hself] at ha
      cases ha
      rw [if_pos rfl] at ht
      cases ht
      rw [if_neg hne] at ht'
      rw [hothers id' hne.symm] at ha'
      exact .inr (hapart (.inl hpending) id' a' t' hne.symm ha' (hsame.symm.trans hkey) hpending' ht')
    · rw [if_neg hid] at ht
      rw [hothers id (Ne.symm hid)] at ha
      by_cases hid' : r.attempt = id'
      · subst hid'
        rw [hself] at ha'
        cases ha'
        rw [if_pos rfl] at ht'
        cases ht'
        exact .inl (hapart (.inl hpending') id a t hne ha (hsame.trans hkey) hpending ht)
      · rw [if_neg hid'] at ht'
        rw [hothers id' (Ne.symm hid')] at ha'
        exact h.apart id id' a a' t t' ha ha' hsame hpending hpending' hne ht ht'
  retry := by
    intro id a t ha hpending ht r' hr' hsame hadded
    rw [lastTime_cons] at ht
    rw [recordedSince_cons] at hr'
    by_cases hid : r.attempt = id
    · rw [if_pos hid] at hr'
      cases hr'
    · rw [if_neg hid] at ht hr'
      rw [hothers id (Ne.symm hid)] at ha
      rcases List.mem_cons.mp hr' with rfl | hr'
      · exact hapart (.inr hadded) id a t (Ne.symm hid) ha hsame.symm hpending ht
      · exact h.retry id a t ha hpending ht r' hr' hsame hadded
  calm := by
    intro machineUuid tokenStatus time hmem
    rcases List.mem_cons.mp hmem with heq | hmem
    · cases heq
    · exact h.calm _ _ _ hmem

/-- **A refresh.**  Any other pending attempt of the same machine and token status is older, as the attempt
that is refreshed was found within 24 hours. -/
theorem Tidy.refresh {stored cur : EnrollAttempt} (h : Tidy definedAt data events) {found : Time}
    (hstored : data.attempts.get r.attempt = some stored) (hkey : stored.key = r.key)
    (hfound : found ≤ stored.createdAt) (hwithin : r.time - aDay ≤ found)
    (hturn : NotOvertaken definedAt events r.key r.time) (hadded : r.added = false)
    (hcur : cur.key = stored.key) (hstatus : cur.status = stored.status) (hcreated : cur.createdAt = r.time)
    (hself : data'.attempts.get r.attempt = some cur)
    (hothers : ∀ id ≠ r.attempt, data'.attempts.get id = data.attempts.get id) :
    Tidy definedAt data' (.recorded r :: events) := by
  obtain ⟨last, hlast, hle, -⟩ := h.dated _ _ hstored
  refine h.record hself hothers (hcur.trans hkey) (fun a ha => ?_) ⟨hcreated.le, .inr hcreated⟩ ?_
  · rw [hstored] at ha
    cases ha
    exact hkey
  · intro hpending id a t hne ha hakey hapending ht
    have hpending' : stored.status = .pending := by
      rcases hpending with hpending | htrue
      · exact hstatus.symm.trans hpending
      · rw [hadded] at htrue
        cases htrue
    have htle : t ≤ r.time := hturn.lastTime_le h ha hakey ht
    rcases h.apart id r.attempt a stored t last ha hstored (hakey.trans hkey.symm) hapending hpending' hne ht
      hlast with hlt | hlt
    · exact hlt.trans_le (hturn.lastTime_le h hstored hkey hlast)
    · linarith

/-- **An addition.**  A pending attempt that its query does not find has not been refreshed within 24 hours;
and if it has been added since then, its default is too old. -/
theorem Tidy.add {row : EnrollAttempt} (h : Tidy definedAt data events) {s : Store Data RowKey AttemptNote}
    (hs : s.data = data ∧ s.events = events) (hnew : data.attempts.get r.attempt = none)
    (hkey : row.key = r.key) (hcreated : row.createdAt = definedAt)
    (hturn : NotOvertaken definedAt events r.key r.time) (hstill : StillNew definedAt s r)
    (hself : data'.attempts.get r.attempt = some row)
    (hothers : ∀ id ≠ r.attempt, data'.attempts.get id = data.attempts.get id) :
    Tidy definedAt data' (.recorded r :: events) := by
  obtain ⟨rfl, rfl⟩ := hs
  refine h.record hself hothers hkey (fun a ha => ?_) ⟨hcreated.trans_le hturn.1, .inl hcreated⟩ ?_
  · rw [hnew] at ha
    cases ha
  · intro _ id a t _ ha hakey hpending ht
    have hopen : (id, a) ∈ openAttempts s.data r.key :=
      Table.mem_rowsWhere.mpr ⟨ha, decide_eq_true ⟨hakey, hpending⟩⟩
    obtain ⟨hlow, hyoung⟩ := hstill _ hopen
    obtain ⟨t', ht', -, hdefault | hrefreshed⟩ := h.dated id a ha
    · by_contra hge
      have hwithin : r.time - aDay ≤ t := by linarith
      have hbound := hyoung hdefault (by rw [ht]; exact decide_eq_true hwithin)
      rw [hdefault] at hlow
      linarith
    · rw [ht] at ht'
      cases ht'
      rw [hrefreshed] at hlow
      linarith

/-- **A decision.** -/
theorem Tidy.decide (h : Tidy definedAt data events) (hdecided : Decided data data') :
    Tidy definedAt data' events where
  dated := by
    intro id a' ha'
    obtain ⟨a, ha, -, hcreated, -⟩ := hdecided.back id a' ha'
    rw [hcreated]
    exact h.dated id a ha
  known := by
    intro r hr
    obtain ⟨a, ha, hkey⟩ := h.known r hr
    obtain ⟨a', ha', hkey', -⟩ := hdecided.forth _ a ha
    exact ⟨a', ha', hkey'.trans hkey⟩
  apart := by
    intro id id' b b' t t' hb hb' hsame hpending hpending' hne ht ht'
    obtain ⟨a, ha, hkey, -, hstatus⟩ := hdecided.back id b hb
    obtain ⟨a', ha', hkey', -, hstatus'⟩ := hdecided.back id' b' hb'
    exact h.apart id id' a a' t t' ha ha' (hkey.symm.trans (hsame.trans hkey')) (hstatus hpending)
      (hstatus' hpending') hne ht ht'
  retry := by
    intro id b t hb hpending ht r hr hsame hadded
    obtain ⟨a, ha, hkey, -, hstatus⟩ := hdecided.back id b hb
    exact h.retry id a t ha (hstatus hpending) ht r hr (hsame.trans hkey) hadded
  calm := h.calm

end Commits

/-! ## The discipline -/

/-- The identity of an attempt. -/
def UsesAttempt (data : Data) (n : ℕ) : Prop := data.attempts.get n ≠ none

/-- Announcements stay, attempts stay, and their times grow. -/
structure AttemptsGrow (s t : Store Data RowKey AttemptNote) : Prop where
  events : s.events <:+ t.events
  rows : ∀ id a, s.data.attempts.get id = some a →
    ∃ b, t.data.attempts.get id = some b ∧ b.key = a.key ∧ a.createdAt ≤ b.createdAt

section AttemptsGrow

variable {s t u : Store Data RowKey AttemptNote}

theorem AttemptsGrow.of_eq (hdata : t.data = s.data) (hevents : t.events = s.events) : AttemptsGrow s t where
  events := hevents ▸ List.suffix_rfl
  rows _ a ha := ⟨a, hdata ▸ ha, rfl, le_refl _⟩

theorem AttemptsGrow.refl (s : Store Data RowKey AttemptNote) : AttemptsGrow s s := .of_eq rfl rfl

theorem AttemptsGrow.trans (h : AttemptsGrow s t) (h' : AttemptsGrow t u) : AttemptsGrow s u where
  events := h.events.trans h'.events
  rows id a ha := by
    obtain ⟨b, hb, hkey, hle⟩ := h.rows id a ha
    obtain ⟨b', hb', hkey', hle'⟩ := h'.rows id b hb
    exact ⟨b', hb', hkey'.trans hkey, hle.trans hle'⟩

theorem AttemptsGrow.recordedOf_mem (h : AttemptsGrow s t) {r : Recorded} (hr : r ∈ recordedOf s.events) :
    r ∈ recordedOf t.events := by
  obtain ⟨note, hnote⟩ := h.events
  rw [← hnote, recordedOf, List.filterMap_append]
  exact List.mem_append_right _ hr

end AttemptsGrow

/-- The attempts are as expected, and their identities have been drawn. -/
structure Orderly (definedAt : Time) (s : Store Data RowKey AttemptNote) : Prop where
  tidy : Tidy definedAt s.data s.events
  drawn : ∀ n, UsesAttempt s.data n → n < s.drawn.length

/-- What a transaction does to the others. -/
structure Considerate (p : TxId) (s t : Store Data RowKey AttemptNote) : Prop where
  numbers : ∀ q, q ≠ p → LeavesNumbers UsesAttempt q s t
  grow : AttemptsGrow s t

theorem Considerate.of_eq {p : TxId} {s t : Store Data RowKey AttemptNote} (hdata : t.data = s.data)
    (hdrawn : t.drawn = s.drawn) (hevents : t.events = s.events) : Considerate p s t :=
  ⟨fun q _ => leavesNumbers_of_eq hdata hdrawn q, .of_eq hdata hevents⟩

/-- **The discipline** of refusals and decisions: the attempts are as expected, and a new one has an identity
of its own. -/
def attemptDiscipline (definedAt : Time) : Discipline Data RowKey DataWrite AttemptNote where
  Inv := Orderly definedAt
  Rely p s t := LeavesNumbers UsesAttempt p s t ∧ AttemptsGrow s t
  Guar := Considerate
  Allowed := InTurn definedAt
  rely_refl p s := ⟨.refl p s, .refl s⟩
  rely_trans _ _ _ _ hst htu := ⟨hst.1.trans htu.1, hst.2.trans htu.2⟩
  rely_of_guar _ q _ _ hq h := ⟨h.numbers q hq, h.grow⟩
  guar_refl _ s := ⟨fun q _ => .refl q s, .refl s⟩
  lock_ok p s row hinv _ := by
    refine ⟨⟨?_, ?_⟩, .of_eq (s.data_lock p row) (s.drawn_lock p row) (s.events_lock p row)⟩
    · rw [Store.data_lock, Store.events_lock]
      exact hinv.tidy
    · rw [Store.data_lock, Store.drawn_lock]
      exact hinv.drawn
  release_ok _ _ hinv := ⟨⟨hinv.tidy, hinv.drawn⟩, .of_eq rfl rfl rfl⟩
  unlock_ok _ _ _ hinv := ⟨⟨hinv.tidy, hinv.drawn⟩, .of_eq rfl rfl rfl⟩
  draw_ok p s hinv := by
    refine ⟨⟨hinv.tidy, fun n hn => ?_⟩, fun q hq => leavesNumbers_draw hq, .of_eq rfl rfl⟩
    exact (hinv.drawn n hn).trans_le (by simp [Store.draw])

section Discipline

variable {p : TxId} {s : Store Data RowKey AttemptNote} {ws : List DataWrite}

theorem orderly_publish {note : List AttemptNote}
    (hinv : Orderly definedAt s) (htidy : Tidy definedAt (s.view ws) (note ++ s.events))
    (hnew : ∀ n, UsesAttempt (s.view ws) n → UsesAttempt s.data n ∨ s.drawn[n]? = some p)
    (hrows : ∀ id a, s.data.attempts.get id = some a →
      ∃ b, (s.view ws).attempts.get id = some b ∧ b.key = a.key ∧ a.createdAt ≤ b.createdAt) :
    Orderly definedAt (s.publish p ws note) ∧ Considerate p s (s.publish p ws note) := by
  refine ⟨⟨htidy, fun n hn => ?_⟩, fun q hq => ⟨fun _ => Iff.rfl, fun n hdrawn hn => ?_⟩,
    List.suffix_append _ _, hrows⟩
  · rcases hnew n hn with hold | hown
    · exact hinv.drawn n hold
    · exact (List.getElem?_eq_some_iff.mp hown).1
  · rcases hnew n hn with hold | hown
    · exact hold
    · rw [hown] at hdrawn
      exact absurd (Option.some.inj hdrawn).symm hq

/-- **The commit of a decision.** -/
theorem publish_decided (hws : ∀ w ∈ ws, w.Decides) (hinv : Orderly definedAt s) :
    Orderly definedAt (s.publish p ws []) ∧ Considerate p s (s.publish p ws []) := by
  have hdecided : Decided s.data (s.view ws) := decided_applyAll hws s.data
  refine orderly_publish hinv (hinv.tidy.decide hdecided) (fun n hn => .inl fun hnone => ?_) ?_
  · obtain ⟨a', ha'⟩ := Option.ne_none_iff_exists'.mp hn
    obtain ⟨a, ha, -⟩ := hdecided.back n a' ha'
    rw [hnone] at ha
    cases ha
  · intro id a ha
    obtain ⟨a', ha', hkey, hcreated⟩ := hdecided.forth id a ha
    exact ⟨a', ha', hkey, hcreated.ge⟩

/-- **The commit of a refresh.** -/
theorem publish_refresh {stored row cur : EnrollAttempt} {r : Recorded} (hinv : Orderly definedAt s)
    (hws : ∀ w ∈ ws, w.SparesAttempts) (hstored : s.data.attempts.get r.attempt = some stored)
    (hsame : stored.key = row.key) (hkey : row.key = r.key) (hfound : row.createdAt ≤ stored.createdAt)
    (hwithin : r.time - aDay ≤ row.createdAt) (hadded : r.added = false) (hcur : cur.key = row.key)
    (hstatus : cur.status = row.status) (hcreated : cur.createdAt = r.time)
    (hturn : NotOvertaken definedAt s.events r.key r.time) :
    Orderly definedAt (s.publish p (ws ++ [.attempt r.attempt row cur]) [.recorded r]) ∧
      Considerate p s (s.publish p (ws ++ [.attempt r.attempt row cur]) [.recorded r]) := by
  have hview : (s.view (ws ++ [.attempt r.attempt row cur])).attempts =
      s.data.attempts.modify r.attempt (EnrollAttempt.writeBack row cur) := by
    rw [Store.view, applyAll_append, applyAll_cons, applyAll_nil]
    exact congrArg (Table.modify · r.attempt _) (attempts_applyAll hws)
  have hself : (s.view (ws ++ [.attempt r.attempt row cur])).attempts.get r.attempt =
      some (EnrollAttempt.writeBack row cur stored) := by
    rw [hview, Table.get_modify_self, hstored]
    rfl
  have hothers : ∀ id ≠ r.attempt, (s.view (ws ++ [.attempt r.attempt row cur])).attempts.get id =
      s.data.attempts.get id := by
    intro id hid
    rw [hview, Table.get_modify_of_ne _ _ hid]
  obtain ⟨last, hlast, hle, -⟩ := hinv.tidy.dated _ _ hstored
  have hbefore : stored.createdAt ≤ r.time :=
    hle.trans (hturn.lastTime_le hinv.tidy hstored (hsame.trans hkey) hlast)
  have hwritten : (EnrollAttempt.writeBack row cur stored).createdAt = r.time := by
    change pick row.createdAt cur.createdAt stored.createdAt = r.time
    rcases pick_cases row.createdAt cur.createdAt stored.createdAt with ⟨heq, hpick⟩ | ⟨-, hpick⟩
    · rw [hpick]
      exact le_antisymm hbefore (hcreated.symm.trans heq ▸ hfound)
    · rw [hpick, hcreated]
  have hstatus' : (EnrollAttempt.writeBack row cur stored).status = stored.status :=
    (congrArg (pick row.status · stored.status) hstatus).trans (pick_same _ _)
  refine orderly_publish hinv ?_ (fun n hn => .inl fun hnone => ?_) ?_
  · exact hinv.tidy.refresh hstored (hsame.trans hkey) hfound hwithin hturn hadded
      (EnrollAttempt.key_writeBack hcur) hstatus' hwritten hself hothers
  · have hne : n ≠ r.attempt := by
      rintro rfl
      rw [hstored] at hnone
      cases hnone
    exact hn ((hothers n hne).trans hnone)
  · intro id a ha
    by_cases hid : id = r.attempt
    · subst hid
      rw [hstored] at ha
      cases ha
      exact ⟨_, hself, EnrollAttempt.key_writeBack hcur, hbefore.trans hwritten.ge⟩
    · exact ⟨a, (hothers id hid).trans ha, rfl, le_refl _⟩

/-- **The commit of an addition.** -/
theorem publish_add {row : EnrollAttempt} {r : Recorded} (hinv : Orderly definedAt s)
    (hws : ∀ w ∈ ws, w.SparesAttempts) (hown : Own UsesAttempt p r.attempt s) (hkey : row.key = r.key)
    (hcreated : row.createdAt = definedAt) (hturn : NotOvertaken definedAt s.events r.key r.time)
    (hstill : StillNew definedAt s r) :
    Orderly definedAt (s.publish p (ws ++ [.newAttempt r.attempt row]) [.recorded r]) ∧
      Considerate p s (s.publish p (ws ++ [.newAttempt r.attempt row]) [.recorded r]) := by
  have hview : (s.view (ws ++ [.newAttempt r.attempt row])).attempts =
      s.data.attempts.insert r.attempt row := by
    rw [Store.view, applyAll_append, applyAll_cons, applyAll_nil]
    exact congrArg (Table.insert · r.attempt row) (attempts_applyAll hws)
  have hnone : s.data.attempts.get r.attempt = none := not_not.mp hown.unused
  have hself : (s.view (ws ++ [.newAttempt r.attempt row])).attempts.get r.attempt = some row := by
    rw [hview, Table.get_insert_self _ hnone]
  have hothers : ∀ id ≠ r.attempt, (s.view (ws ++ [.newAttempt r.attempt row])).attempts.get id =
      s.data.attempts.get id := by
    intro id hid
    rw [hview, Table.get_insert_of_ne _ hid]
  refine orderly_publish hinv ?_ (fun n hn => ?_) ?_
  · exact hinv.tidy.add ⟨rfl, rfl⟩ hnone hkey hcreated hturn hstill hself hothers
  · by_cases hid : n = r.attempt
    · exact .inr (hid ▸ hown.drawn)
    · exact .inl fun h => hn ((hothers n hid).trans h)
  · intro id a ha
    refine ⟨a, ?_, rfl, le_refl _⟩
    rw [hview]
    exact Table.get_insert_of_get ha

/-- **Who finds several attempts** has been overtaken: one of them has been refreshed later. -/
theorem Tidy.overtaken {a : EnrollAttempt} (h : Tidy definedAt data events) {key : String × Refusal} {time : Time}
    {id id' : Uuid} {a' : EnrollAttempt} (hne : id ≠ id') (ha : data.attempts.get id = some a)
    (ha' : data.attempts.get id' = some a') (hkey : a.key = key) (hkey' : a'.key = key)
    (hpending : a.status = .pending) (hpending' : a'.status = .pending)
    (hfrom : time - aDay ≤ a.createdAt) (hfrom' : time - aDay ≤ a'.createdAt) :
    ∃ r ∈ recordedOf events, r.key = key ∧ time < r.time := by
  obtain ⟨t, ht, hle, -⟩ := h.dated id a ha
  obtain ⟨t', ht', hle', -⟩ := h.dated id' a' ha'
  have hkeyed : ∀ {id a t}, data.attempts.get id = some a → a.key = key → lastTime id events = some t →
      time < t → ∃ r ∈ recordedOf events, r.key = key ∧ time < r.time := by
    intro id a t ha hkey ht hlt
    obtain ⟨r, hr, rfl, rfl⟩ := exists_of_lastTime ht
    obtain ⟨b, hb, hbkey⟩ := h.known r hr
    rw [ha] at hb
    cases hb
    exact ⟨r, hr, hbkey.symm.trans hkey, hlt⟩
  rcases h.apart id id' a a' t t' ha ha' (hkey.trans hkey'.symm) hpending hpending' hne ht ht' with hlt | hlt
  · exact hkeyed ha' hkey' ht' (by linarith)
  · exact hkeyed ha hkey ht (by linarith)

/-- What comes of the result of `_record_enroll_attempt`: a commit in turn is in order, and who has found
several attempts has been overtaken. -/
def Ready (definedAt : Time) (p : TxId) :
    Except RecordFailure Recorded → List DataWrite → Store Data RowKey AttemptNote → Prop
  | .ok r, ws, s => ∀ t, (attemptDiscipline definedAt).Rely p s t → Orderly definedAt t →
      InTurn definedAt t ws [.recorded r] →
      Orderly definedAt (t.publish p ws [.recorded r]) ∧ Considerate p t (t.publish p ws [.recorded r])
  | .error (.attempts machineUuid tokenStatus time), _, s =>
      ∃ r ∈ recordedOf s.events, r.key = (machineUuid, tokenStatus) ∧ time < r.time
  | .error _, _, _ => True

/-- **`_record_enroll_attempt`** is safe. -/
theorem safe_recordEnrollAttempt (I : Identification) (r : RefusedRequest)
    (hws : ∀ w ∈ ws, w.SparesAttempts) :
    ((recordEnrollAttempt I r.tokenStr r.tokenStatus r.tokenRow r.hostname r.fingerprint r.ip).noting
      fun _ => []).Safe (attemptDiscipline I.attemptDefinedAt) p (Ready I.attemptDefinedAt p) ws s := by
  refine noting_answer _ fun _ e _ _ => ?_
  cases computeWeightedId I r.fingerprint with
  | none => exact noting_pure trivial
  | some weighted =>
    refine noting_select _ fun t _ _ => ?_
    cases r.tokenRow.elim (some none) fun row => exactMatch (t.view ws) row.2.orgId weighted with
    | none => exact noting_pure trivial
    | some matched =>
      refine noting_select _ fun t _ hinv => ?_
      have hview : (t.view ws).attempts = t.data.attempts := attempts_applyAll hws
      rw [hview]
      split
      · rename_i hseveral
        refine noting_pure ?_
        obtain ⟨id, id', a, a', hne, ⟨ha, hq⟩, ha', hq'⟩ := exists_ne_of_scalarOneOrNone hseveral
        obtain ⟨hmachine, hstatus, hpending, hfrom⟩ := of_decide_eq_true hq
        obtain ⟨hmachine', hstatus', hpending', hfrom'⟩ := of_decide_eq_true hq'
        exact hinv.tidy.overtaken hne ha ha' (Prod.ext hmachine hstatus) (Prod.ext hmachine' hstatus')
          hpending hpending' hfrom hfrom'
      · rename_i id row hfound
        obtain ⟨hrow, hq⟩ := Table.mem_rowsWhere.mp (mem_of_scalarOneOrNone hfound)
        obtain ⟨hmachine, hstatus, -, hfrom⟩ := of_decide_eq_true hq
        refine noting_update _ _ fun t₁ hstay _ => noting_pure fun u hstay' hu hturn => ?_
        obtain ⟨stored, hstored, hsame, hle⟩ := (hstay.2.trans
          (.trans (.of_eq (t₁.data_lock p _) (t₁.events_lock p _)) hstay'.2)).rows id row hrow
        have hkey : row.key = (weighted, r.tokenStatus) := Prod.ext hmachine hstatus
        exact publish_refresh (r := ⟨id, weighted, r.tokenStatus, e.now, false⟩) hu hws hstored hsame hkey hle
          hfrom rfl rfl rfl rfl (hturn _ List.mem_cons_self).1
      · refine noting_fresh fun t₁ hstay hinv₁ => noting_insert _ fun t₂ hstay₂ _ => ?_
        refine noting_pure fun u hstay₃ hu hturn => ?_
        have hnumbers := hstay₂.1.trans hstay₃.1
        have hown : Own UsesAttempt p t₁.drawn.length (t₁.draw p) :=
          ⟨by simp [Store.draw], fun h => Nat.lt_irrefl _ (hinv₁.drawn _ h)⟩
        obtain ⟨hin, hnew⟩ := hturn _ List.mem_cons_self
        refine publish_add (r := ⟨t₁.drawn.length, weighted, r.tokenStatus, e.now, true⟩) hu hws ?_ rfl rfl hin
          (hnew rfl)
        exact ⟨(hnumbers.drawn _).mpr hown.drawn,
          fun h => hown.unused (hnumbers.unused _ hown.drawn h)⟩

/-- A silent program whose writes are all of one kind, before the rest of a request. -/
theorem safe_markExpired (r : RefusedRequest) :
    ((markExpired r).noting fun _ => []).Safe (attemptDiscipline definedAt) p
      (fun _ ws _ => ∀ w ∈ ws, w.SparesAttempts) [] s := by
  have honly : (markExpired r).Only DataWrite.SparesAttempts (fun _ => False) fun _ => True := by
    rw [markExpired]
    split
    · exact only_flushToken trivial
    · exact only_pure trivial
  refine ((honly.noting fun _ => []).safe_of_all ?_ (List.forall_mem_nil _)).mono fun _ _ _ h => h.2
  rintro _ _ _ ⟨_, hnone, -⟩
  exact hnone.elim

theorem only_getAttemptInScope {A : DataWrite → Prop} {B : List Note → Prop} (attemptId : Uuid)
    (admin : User) : (getAttemptInScope attemptId admin).Only A B fun _ => True := by
  refine only_select _ fun attempt => ?_
  cases attempt with
  | none => exact only_pure trivial
  | some attempt =>
    dsimp only
    split
    · split_ifs
      · exact only_pure trivial
      · exact only_pure trivial
    · refine only_select _ fun visible => ?_
      split_ifs
      · exact only_pure trivial
      · exact only_pure trivial

theorem only_flushAttempt {base cur : EnrollAttempt} {A : DataWrite → Prop} {B : List Note → Prop} {id : Uuid}
    (h : A (.attempt id base cur)) : (flushAttempt id base cur).Only A B fun _ => True :=
  only_update_one _ (fun _ => h) fun _ => only_pure trivial

theorem only_approveAttempt (attemptId : Uuid) (note : Option String) (caller : Option Uuid) :
    (approveAttempt c attemptId note caller).Only DataWrite.Decides (fun _ => True) fun _ => True := by
  refine (only_requireAdmin caller).bind fun admin _ => ?_
  cases admin with
  | error e => exact only_pure trivial
  | ok x =>
    refine (only_getAttemptInScope attemptId x.2).bind fun attempt _ => ?_
    cases attempt with
    | error e => exact only_pure trivial
    | ok attempt =>
      dsimp only
      split_ifs
      · exact only_pure trivial
      · split
        · exact only_pure trivial
        · refine only_answer _ fun time => only_fresh fun random => only_fresh fun id => ?_
          refine only_insert trivial ?_
          refine (only_flushAttempt ⟨rfl, rfl, fun h => by cases h⟩).bind fun _ _ => ?_
          exact only_publish trivial (only_pure trivial)

theorem only_rejectAttempt (attemptId : Uuid) (note : Option String) (caller : Option Uuid) :
    (rejectAttempt attemptId note caller).Only DataWrite.Decides (fun _ => True) fun _ => True := by
  refine (only_requireAdmin caller).bind fun admin _ => ?_
  cases admin with
  | error e => exact only_pure trivial
  | ok x =>
    refine (only_getAttemptInScope attemptId x.2).bind fun attempt _ => ?_
    cases attempt with
    | error e => exact only_pure trivial
    | ok attempt =>
      dsimp only
      split_ifs
      · exact only_pure trivial
      · refine only_answer _ fun time => ?_
        refine (only_flushAttempt ⟨rfl, rfl, fun h => by cases h⟩).bind fun _ _ => ?_
        exact only_publish trivial (only_pure trivial)

theorem safe_of_decides {α : Type} {m : Handler α}
    (hm : m.Only DataWrite.Decides (fun _ => True) fun _ => True) :
    (m.noting (fun _ => []) >>= fun _ => pure ()).Safe (attemptDiscipline definedAt) p anyEnd [] s := by
  refine ((hm.noting fun _ => []).safe_of_all ?_ (List.forall_mem_nil _)).bind fun _ _ _ _ => trivial
  rintro ws t _ ⟨_, -, rfl⟩ hinv hws -
  exact publish_decided hws hinv

/-- **Every request** is safe. -/
theorem safe_attemptRoute (request : AttemptRequest) :
    (attemptRoute c request).Safe (attemptDiscipline c.fleet.identification.attemptDefinedAt) p anyEnd []
      s := by
  cases request with
  | approve attemptId note caller => exact safe_of_decides (only_approveAttempt c attemptId note caller)
  | reject attemptId note caller => exact safe_of_decides (only_rejectAttempt attemptId note caller)
  | refused r =>
    refine (safe_markExpired r).bind fun _ ws t hws => ?_
    have hrefusal : (refusal c.fleet.identification r).Safe
        (attemptDiscipline c.fleet.identification.attemptDefinedAt) p
        (fun result _ u => ∀ machineUuid tokenStatus time,
          result = .error (.attempts machineUuid tokenStatus time) →
            ∃ r ∈ recordedOf u.events, r.key = (machineUuid, tokenStatus) ∧ time < r.time) ws t := by
      refine (safe_recordEnrollAttempt c.fleet.identification r hws).bind fun result ws u hready => ?_
      cases result with
      | error e =>
        refine safe_pure ?_
        rintro machineUuid tokenStatus time ⟨⟩
        exact hready
      | ok recorded =>
        refine safe_publish _ fun v hstay hinv hturn => ?_
        obtain ⟨horderly, hconsiderate⟩ := hready v hstay hinv hturn
        refine ⟨horderly, hconsiderate, safe_pure ?_⟩
        rintro machineUuid tokenStatus time ⟨⟩
    refine hrefusal.bind fun result ws u hresult => ?_
    split
    · rename_i machineUuid tokenStatus time
      obtain ⟨r', hr', hkey, hlt⟩ := hresult _ _ _ rfl
      intro v hstay _ w hstay' _ hturn
      -- the commit would not be in turn
      have hrelease : AttemptsGrow v (v.release p) := .of_eq rfl rfl
      have hgrow : AttemptsGrow u w := hstay.2.trans (hrelease.trans hstay'.2)
      have hle := (hturn _ List.mem_cons_self).2 r' (hgrow.recordedOf_mem hr') hkey
      exact absurd hle (not_le.mpr hlt)
    · exact safe_pure trivial

end Discipline

/-! ## Runs -/

/-- **The attempts stay deduplicated** in every run whose commits meet the condition. -/
theorem deduplicated_of_runs {s : Store Data RowKey AttemptNote} (hs : s.data.attempts = Table.empty)
    (hevents : s.events = []) {g : Engine Data RowKey DataWrite Env AttemptNote}
    (hrun : Runs (attemptStep c) (CommitsOnly (InTurn c.fleet.identification.attemptDefinedAt))
      (Engine.start s) g) : Deduplicated g.store := by
  have hnone : ∀ id, s.data.attempts.get id = none := fun id => by rw [hs, Table.get_empty]
  have hstart : Orderly c.fleet.identification.attemptDefinedAt s := by
    refine ⟨⟨?_, ?_, ?_, ?_, ?_⟩, fun n hn => absurd (hnone n) hn⟩
    · exact fun id a ha => absurd ((hnone id).symm.trans ha) (by simp)
    · rw [hevents]
      exact List.forall_mem_nil _
    · exact fun id _ a _ _ _ ha => absurd ((hnone id).symm.trans ha) (by simp)
    · exact fun id a _ ha => absurd ((hnone id).symm.trans ha) (by simp)
    · rw [hevents]
      exact fun _ _ _ => List.not_mem_nil
  have horderly : Orderly c.fleet.identification.attemptDefinedAt g.store :=
    invariant_of_runs (R := attemptDiscipline c.fleet.identification.attemptDefinedAt)
      (fun _ request _ _ => safe_attemptRoute c request) (allSafe_start hstart)
      (permits_of_commits (fun _ _ _ => trivial) hrun)
  exact horderly.tidy.deduplicated

/-! ## A machine that retries -/

/-- Settings that nothing depends on. -/
def plainPortal : PortalSettings where
  fleet := exampleFleet
  orgName := fun _ => none
  collation := String.length
  maskPhone := id
  encryptPhone := id
  tokenText := fun n => toString n
  requestDefinedAt := 0

/-- A token that nobody knows. -/
def unknownToken : RefusedRequest where
  tokenStr := "token"
  tokenStatus := .unknown
  tokenRow := none
  hostname := none
  fingerprint := [("smbios_uuid", .str "4C4C4544")]
  ip := none

def noAttempts : Store Data RowKey AttemptNote := ⟨noData, fun _ => none, [], []⟩

/-- The machine tries at a time. -/
def tryAt (p : TxId) (time : Time) (statements : ℕ) : List (Op AttemptRequest Env) :=
  .begin p (.refused unknownToken) :: List.replicate statements (.run p { exampleAnswer with now := time })

/-- **The default is too old**: a process that has run for 25 hours adds an attempt at every retry. -/
theorem retry_adds_attempt : ¬ ∀ (c : PortalSettings) (s : Store Data RowKey AttemptNote),
    s.data.attempts = Table.empty → s.events = [] →
    ∀ g, Runs (attemptStep c) anyAction (Engine.start s) g → Deduplicated g.store := by
  intro h
  obtain ⟨g, hrun, hg⟩ := exists_runs_of_exec (G := anyAction) (attemptStep plainPortal)
    (Engine.start noAttempts) (tryAt 0 (minutes 1500) 7 ++ tryAt 0 (minutes 1501) 7)
    (p := fun g => decide (recordedOf g.store.events =
        [⟨1, "4C4C4544", .unknown, minutes 1501, true⟩, ⟨0, "4C4C4544", .unknown, minutes 1500, true⟩] ∧
      (g.store.data.attempts.get 0).map (fun a => (a.key, a.status)) =
        some (("4C4C4544", .unknown), .pending))) (by decide +kernel)
  obtain ⟨hrecorded, hget⟩ := of_decide_eq_true hg
  obtain ⟨a, ha, hrow⟩ := Option.map_eq_some_iff.mp hget
  obtain ⟨hkey, hpending⟩ := Prod.mk.inj hrow
  have hlast : lastTime 0 g.store.events = some (minutes 1500) := by
    rw [lastTime, hrecorded]
    rfl
  have hretry := (h plainPortal noAttempts rfl rfl g hrun).retry 0 a _ ha hpending hlast
    ⟨1, "4C4C4544", .unknown, minutes 1501, true⟩ (by rw [recordedSince, hrecorded]; decide) hkey.symm rfl
  exact absurd hretry (by decide)

theorem deduplicated_of_retry :
    ∃ g, Runs (attemptStep plainPortal) (CommitsOnly (InTurn 0)) (Engine.start noAttempts) g ∧
      recordedOf g.store.events =
        [⟨0, "4C4C4544", .unknown, minutes 6, false⟩, ⟨0, "4C4C4544", .unknown, minutes 5, true⟩] ∧
      Deduplicated g.store := by
  obtain ⟨g, hrun, hg⟩ := exists_runs_of_exec (G := CommitsOnly (InTurn 0)) (attemptStep plainPortal)
    (Engine.start noAttempts) (tryAt 0 (minutes 5) 7 ++ tryAt 0 (minutes 6) 6)
    (p := fun g => decide (recordedOf g.store.events =
      [⟨0, "4C4C4544", .unknown, minutes 6, false⟩, ⟨0, "4C4C4544", .unknown, minutes 5, true⟩]))
    (by decide +kernel)
  exact ⟨g, hrun, of_decide_eq_true hg, deduplicated_of_runs plainPortal rfl rfl hrun⟩

end AssetInventory.Fleet

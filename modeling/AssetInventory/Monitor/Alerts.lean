import AssetInventory.Monitor.Notifications

/-!
# Alerts

An alert goes through the rules that subscribe to it.  Each of them leaves an event in the session and hands
the session to the notifications, which commit it, or roll it back with everything that is in it.  The sweep
over the machines that have gone offline does all its work in one session, too.

* `triggerAlert`, `Sweep.sweepOffline`: the alerts, and the sweep.
* `notifyFate`, `triggerFate`, `Sweep.comesOff`: what becomes of a call, of an alert and of a sweep, as
  functions of the tables and of the refusals.
* `work_kept_iff`: an alert returns no event that is lost exactly when the call for the last rule is not
  rolled back; a sweep leaves every machine offline exactly when it comes off.
* `machine_stays_online`: a rule with two recipients, whose alert keeps the machine online.
-/

namespace AssetInventory.Monitor

open PyJson PyTime UnitOfWork Server

/-! ## `trigger_alert` -/

/-- What an alert is about, and what happens while it goes out. -/
structure Alert where
  templateCode : String
  orgId : Option Uuid
  machineId : Option Uuid
  /-- The rendered texts. -/
  title : String
  body : Option String
  /-- `ctx`. -/
  context : List (String × Json)
  /-- `_fingerprint`, for the id of a rule. -/
  fingerprint : Uuid → String
  /-- How deep the interpreter lets a recursion go. -/
  depth : ℕ
  /-- What the server refuses of the notification for a rule. -/
  faults : Uuid → NotifyFaults

/-- `scope_orgs`, with its statement. -/
def scopeOrgsOf (depth : ℕ) (orgId : Option Uuid) (scopeMode : ScopeMode) : Work Data (List Uuid) :=
  if scopeMode ≠ .system ∧ (orgId = none ∨ scopeMode = .orgOnly) then pure orgId.toList
  else do
    let rows ← Work.select false Data.organizations
    match scopeOrgs depth rows orgId scopeMode with
    | none => Work.throw (.other "RecursionError")
    | some ids => return ids

/-- `scope_ids` of a rule; `none` if the rule is passed over. -/
def ruleScope (alert : Alert) (rule : AlertRule) : Work Data (Option (List Uuid)) :=
  if rule.scopeMode ≠ .system then
    match rule.orgId with
    | none => return none
    | some orgId => do
      let ids ← scopeOrgsOf alert.depth (some orgId) rule.scopeMode
      return if alert.orgId ∈ ids.map some then some ids else none
  else do
    let ids ← scopeOrgsOf alert.depth none .system
    return some ids

/-- `SEVERITY_RANK.get(severity, 0)`. -/
def severityRank (severity : String) : ℕ :=
  if severity = "success" then 1 else if severity = "warning" then 2 else if severity = "error" then 3
  else if severity = "critical" then 4 else 0

/-- A user does not want the alerts of a template. -/
def optsOut (template : AlertTemplate) : Option NotificationPref → Bool
  | none => false
  | some pref =>
    pref.muted || (decide ("severity" ∈ template.optOutControls) && (given pref.minSeverity).any fun least =>
      decide (severityRank template.defaultSeverity < severityRank least))

/-- `get_pref`. -/
def Data.prefOf (data : Data) (template : AlertTemplate) (user : Recipient) : Option NotificationPref :=
  data.prefs.find? fun pref => decide (pref.userId = user.id ∧ pref.templateCode = template.code)

/-- The organisation administrators that are notified. -/
def acceptAdmins (template : AlertTemplate) : List Recipient → Work Data (List Recipient)
  | [] => return []
  | user :: users => do
    let pref ← Work.select false fun data => data.prefOf template user
    let accepted ← acceptAdmins template users
    return if optsOut template pref then accepted else user :: accepted

/-- The first of the users with each id. -/
def dedup : List Uuid → List Recipient → List Recipient
  | _, [] => []
  | seen, user :: users =>
    if user.id ∈ seen then dedup seen users else user :: dedup (user.id :: seen) users

/-- The active organisation administrators of some organisations. -/
def Data.orgAdmins (data : Data) (scopeIds : List Uuid) : List Recipient :=
  data.users.filter fun user =>
    user.isActive && decide (user.role ∈ [.orgAdmin, .adminOrg] ∧ user.orgId ∈ scopeIds)

/-- The active super administrators. -/
def Data.supers (data : Data) : List Recipient :=
  data.users.filter fun user => user.isActive && decide (user.role ∈ superRoles)

def resolveRecipients (template : AlertTemplate) (scopeIds : List Uuid) : Work Data (List Recipient) :=
  if scopeIds = [] then return []
  else do
    let orgAdmins ← Work.select false fun data => data.orgAdmins scopeIds
    let supers ← Work.select false Data.supers
    let accepted ← acceptAdmins template orgAdmins
    return dedup [] (accepted ++ supers)

def newEvent (alert : Alert) (template : AlertTemplate) (rule : AlertRule) (recipients : List Recipient)
    (id : ℕ) : AlertEvent where
  id := id
  ruleId := rule.id
  templateCode := alert.templateCode
  machineId := alert.machineId
  orgId := alert.orgId
  fingerprint := alert.fingerprint rule.id
  severity := template.defaultSeverity
  title := alert.title
  body := alert.body
  context := alert.context
  recipientUserIds := recipients.map Recipient.id

/-- `db.add` of an event. -/
def Data.addEvent (data : Data) (event : AlertEvent) : Data :=
  { data with events := data.events ++ [event], nextEvent := data.nextEvent + 1 }

/-- The events of a rule with the fingerprint of an alert. -/
def Data.duplicates (data : Data) (alert : Alert) (rule : AlertRule) : List AlertEvent :=
  data.events.filter fun event => decide (event.ruleId = rule.id ∧ event.machineId = alert.machineId ∧
    event.fingerprint = alert.fingerprint rule.id)

/-- `idempotency_key` of an event. -/
def alertKey (id : ℕ) : String := "alert-event:" ++ toString id ++ ":all"

/-- What `_deliver` calls `create_notification` with. -/
def AlertEvent.call (event : AlertEvent) : NotificationCall where
  source := "system"
  category := "alert"
  severity := event.severity
  title := event.title
  body := event.body
  link := event.machineId.map fun id => "/machines/" ++ toString id
  entityType := some "alert"
  entityId := some (toString event.id)
  senderId := none
  apiKeyId := none
  idempotencyKey := some (alertKey event.id)

def deliver (event : AlertEvent) (recipients : List Recipient) (faults : NotifyFaults) :
    Work Data Unit :=
  if recipients = [] then return ()
  else do
    let _ ← createNotification event.call (recipients.map Recipient.id) faults

/-- One round of the loop over the rules. -/
def alertRule (alert : Alert) (template : AlertTemplate) (rule : AlertRule) :
    Work Data (Option AlertEvent) := do
  let scope ← ruleScope alert rule
  match scope with
  | none => return none
  | some scopeIds =>
    let duplicates ← Work.select false fun data => data.duplicates alert rule
    match duplicates with
    | _ :: _ :: _ => Work.throw (.other "MultipleResultsFound")
    | [_] => return none
    | [] =>
      let recipients ← resolveRecipients template scopeIds
      let event ← Work.peek fun data => newEvent alert template rule recipients data.nextEvent
      Work.change fun data => data.addEvent event
      Work.flush false
      deliver event recipients (alert.faults rule.id)
      return some event

/-- The loop over the rules; they were read when the session had this age. -/
def alertRules (alert : Alert) (template : AlertTemplate) (age : ℕ) :
    List AlertRule → Work Data (List AlertEvent)
  | [] => return []
  | rule :: rules => do
    Work.touch age
    let event ← alertRule alert template rule
    let events ← alertRules alert template age rules
    return event.toList ++ events

/-- `get_template`, if it is enabled. -/
def Data.templateOf (data : Data) (code : String) : Option AlertTemplate :=
  (data.templates.find? fun template => decide (template.code = code)).filter AlertTemplate.enabled

/-- The enabled rules for a template. -/
def Data.rulesOf (data : Data) (code : String) : List AlertRule :=
  data.rules.filter fun rule => decide (rule.templateCode = code) && rule.enabled

def triggerAlert (alert : Alert) : Work Data (List AlertEvent) := do
  let template ← Work.select false fun data => data.templateOf alert.templateCode
  match template with
  | none => return []
  | some template =>
    let rules ← Work.select false fun data => data.rulesOf alert.templateCode
    let age ← Work.stamp
    if rules = [] then return []
    else
      let events ← alertRules alert template age rules
      Work.commit false
      return events

/-! ## `_sweep_offline` -/

/-- What happens during a sweep. -/
structure Sweep where
  cutoff : Time
  depth : ℕ
  /-- The texts of the alert for a machine, and what they are made from. -/
  title : Uuid → String
  body : Uuid → Option String
  context : Uuid → List (String × Json)
  /-- The fingerprint for a machine and a rule, and what the server refuses of their notification. -/
  fingerprint : Uuid → Uuid → String
  faults : Uuid → Uuid → NotifyFaults

def Sweep.alert (sweep : Sweep) (m : MonitoredMachine) : Alert where
  templateCode := "machine_offline"
  orgId := some m.orgId
  machineId := some m.id
  title := sweep.title m.id
  body := sweep.body m.id
  context := sweep.context m.id
  fingerprint := sweep.fingerprint m.id
  depth := sweep.depth
  faults := sweep.faults m.id

/-- The machines that have been silent since before the cutoff, but are online. -/
def Data.stale (data : Data) (cutoff : Time) : List MonitoredMachine :=
  data.machines.filter fun m => decide (m.status = "online") && m.lastSeenAt.all fun seen => seen < cutoff

/-- `m.status = "offline"`. -/
def Data.setOffline (id : Uuid) (data : Data) : Data :=
  { data with
    machines := data.machines.map fun m => if m.id = id then { m with status := "offline" } else m }

/-- One round of the loop over the machines.  The event for the browsers is published in between. -/
def sweepMachine (sweep : Sweep) (age : ℕ) (m : MonitoredMachine) : Work Data Unit := do
  Work.change (Data.setOffline m.id)
  Work.touch age
  Work.attempt
    (do
      let hasRule ← Work.select false fun data => data.rulesOf "machine_offline" |>.head?
      if hasRule.isSome then
        let _ ← triggerAlert (sweep.alert m))
    fun _ => return ()

def Sweep.sweepOffline (sweep : Sweep) : Work Data Unit := do
  let rows ← Work.select false fun data => data.stale sweep.cutoff
  let age ← Work.stamp
  rows.forM (sweepMachine sweep age)
  if rows ≠ [] then Work.commit false

/-! ## What becomes of a call -/

/-- What becomes of a call with a key. -/
inductive NotifyFate where
  /-- It does nothing. -/
  | idle
  /-- The query for the key is refused. -/
  | refused
  /-- The rows are refused, and rolled back. -/
  | dropped
  /-- So is then the second query for the key. -/
  | undone
  /-- The rows are committed. -/
  | committed (after : Aftermath)
  deriving DecidableEq

/-- The rows of a call are taken: there is one recipient, who exists, and the row fits. -/
def NotificationCall.stores (call : NotificationCall) (recipients : List Uuid) (data : Data) : Bool :=
  decide (recipients.length = 1) && call.fits && call.refers data &&
    recipients.all fun recipient => data.users.any fun user => decide (user.id = recipient)

/-- What becomes of a call with this key. -/
def notifyFate (key : String) (call : NotificationCall) (recipients : List Uuid) (faults : NotifyFaults)
    (data : Data) : NotifyFate :=
  match recipients with
  | [] => .idle
  | recipient :: _ =>
    if faults.check || key.toList.contains (Char.ofNat 0) then .refused
    else if key ∈ data.sent.keys then .idle
    else if faults.insert || !call.stores recipients data then
      if faults.again then .undone else .dropped
    else .committed (faults.aftermath data recipient)

section Calls

variable {key : String} {call : NotificationCall} {recipients : List Uuid} {faults : NotifyFaults}
  {data : Data} {s t : Session Data}

/-- This is what has become of a call in this session. -/
def NotifyFate.Shown {α : Type} (call : NotificationCall) (recipients : List Uuid) (s : Session Data) :
    NotifyFate → Except Raised α × Session Data → Prop
  | .idle, result => ∃ a, result = (.ok a, s)
  | .refused, result => result = (.error .refused, { s with standing := .aborted })
  | .dropped, result => ∃ a, result = (.ok a, rolledBack s)
  | .undone, result => result = (.error .refused, { rolledBack s with standing := .aborted })
  | .committed after, result => Constrained.valid (s.pending.withRows call recipients) = true ∧
      after.Shown (s.pending.withRows call recipients) s result

theorem stores_iff : call.stores recipients data = true ↔
    recipients.length = 1 ∧ call.fits = true ∧ call.refers data = true ∧
      ∀ recipient ∈ recipients, ∃ user ∈ data.users, user.id = recipient := by
  simp [NotificationCall.stores, and_assoc]

theorem notifyFate_shown (hs : Ready s) (hstored : Constrained.valid s.committed = true)
    (hgiven : call.givenKey = some key) (recipients : List Uuid) (faults : NotifyFaults) :
    (notifyFate key call recipients faults s.pending).Shown call recipients s
      (createNotification call recipients faults s) := by
  have hkey : call.idempotencyKey = some key := (Option.filter_eq_some_iff.mp hgiven).1
  have hunasked : Unasked call faults ↔
      (faults.check || key.toList.contains (Char.ofNat 0)) = true := by
    rw [Unasked, hgiven, Bool.or_eq_true]
    simp [KeyRefused]
  have htaken : call.Taken s.pending ↔ key ∈ s.pending.sent.keys := by
    rw [NotificationCall.Taken, hgiven]
    simp
  have hcases := createNotification_cases hs call recipients faults
  rw [hunasked, htaken] at hcases
  unfold notifyFate
  cases recipients with
  | nil =>
    rcases hcases with ⟨-, hrun⟩ | ⟨h, -⟩ | ⟨h, -⟩ | ⟨h, -⟩
    · exact ⟨[], hrun⟩
    all_goals exact absurd rfl h
  | cons recipient others =>
    dsimp only
    have hne : recipient :: others ≠ [] := List.cons_ne_nil recipient others
    rcases hcases with ⟨hwhy, hrun⟩ | ⟨-, hwhy, hrun⟩ | ⟨-, hasked, hfree, hwhy, hrun⟩ |
      ⟨-, hasked, hfree, hinsert, hrows, hrun⟩
    · obtain ⟨hasked, hmem⟩ := hwhy.resolve_left hne
      rw [if_neg hasked, if_pos hmem]
      exact ⟨[], hrun⟩
    · rw [if_pos hwhy]
      exact hrun
    · have hrefused : (faults.insert || !call.stores (recipient :: others) s.pending) = true := by
        rw [Bool.or_eq_true, Bool.not_eq_true', ← Bool.not_eq_true]
        refine hwhy.imp_right fun hinvalid hstores => ?_
        have hvalid := (valid_withRows_iff hs.valid hkey hne).mpr ⟨hfree, stores_iff.mp hstores⟩
        rw [hvalid] at hinvalid
        cases hinvalid
      rw [if_neg hasked, if_neg hfree, if_pos hrefused, hrun]
      rcases afterRefusal_cases hstored faults.again call with ⟨hnone, -⟩ | ⟨key', hgiven', hafter⟩
      · rw [hgiven] at hnone
        cases hnone
      · have hsame : key' = key := Option.some.inj (hgiven'.symm.trans hgiven)
        have hagain : KeyRefused faults.again key' ↔ faults.again = true := by
          rw [Bool.or_eq_true, not_or] at hasked
          rw [hsame, KeyRefused, or_iff_left hasked.2]
        rw [hagain] at hafter
        rcases hafter with ⟨hafter, hnot⟩ | ⟨hafter, hyes⟩
        · rw [if_neg hnot, hafter]
          exact ⟨_, rfl⟩
        · rw [if_pos hyes, hafter]
          rfl
    · obtain ⟨-, hone, htakes⟩ := (valid_withRows_iff hs.valid hkey hne).mp hrows
      have hstores : call.stores (recipient :: others) s.pending = true := stores_iff.mpr ⟨hone, htakes⟩
      have haccepted : ¬ (faults.insert || !call.stores (recipient :: others) s.pending) = true := by
        simp [hinsert, hstores]
      rw [if_neg hasked, if_neg hfree, if_neg haccepted, hrun]
      obtain rfl : others = [] := List.length_eq_zero_iff.mp (Nat.succ.inj hone)
      have hsettled : Settled (s.pending.withRows call [recipient])
          (published s (s.pending.withRows call [recipient])) :=
        ⟨⟨_, rfl⟩, rfl, rfl, by simp [published, hs.active]⟩
      exact ⟨hrows, (shown_afterCommit hsettled hs.active hrows faults
        (call.row s.pending.sent.nextId recipient)).bind_pure _⟩

end Calls

/-! ## What becomes of a rule -/

/-- The organisations that a rule covers, where it is not passed over; `none` if the recursion is too
deep. -/
def Alert.scope (alert : Alert) (rule : AlertRule) (rows : List OrgRow) : Option (Option (List Uuid)) :=
  if rule.scopeMode ≠ .system then
    match rule.orgId with
    | none => some none
    | some orgId =>
      (scopeOrgs alert.depth rows (some orgId) rule.scopeMode).map fun ids =>
        if alert.orgId ∈ ids.map some then some ids else none
  else (scopeOrgs alert.depth rows none .system).map some

/-- A rule that is passed over without a statement. -/
def Alert.skips (alert : Alert) (rule : AlertRule) : Bool :=
  decide (rule.scopeMode ≠ .system) &&
    match rule.orgId with
    | none => true
    | some orgId => decide (rule.scopeMode = .orgOnly ∧ alert.orgId ≠ some orgId)

/-- Those who are notified. -/
def Data.recipients (data : Data) (template : AlertTemplate) (scopeIds : List Uuid) : List Recipient :=
  if scopeIds = [] then []
  else
    dedup [] ((data.orgAdmins scopeIds).filter (fun user => !optsOut template (data.prefOf template user)) ++
      data.supers)

/-- What a rule leads to. -/
inductive RuleFate where
  | passed
  /-- An exception that leaves the session as it is. -/
  | raised
  /-- An event, and those who are notified of it. -/
  | noted (recipients : List Recipient)
  deriving DecidableEq

/-- What a rule leads to. -/
def ruleFate (alert : Alert) (template : AlertTemplate) (rule : AlertRule) (data : Data) : RuleFate :=
  match alert.scope rule data.organizations with
  | none => .raised
  | some none => .passed
  | some (some scopeIds) =>
    match data.duplicates alert rule with
    | [] => .noted (data.recipients template scopeIds)
    | [_] => .passed
    | _ :: _ :: _ => .raised

section Rules

variable {alert : Alert} {template : AlertTemplate} {rule : AlertRule} {data : Data} {s t : Session Data}

theorem Ready.select {α : Type} (hs : Ready s) (query : Data → α) :
    Work.select false query s = (.ok (query s.pending), s) := by
  rw [Work.select_active hs.active hs.valid, hs.clean_eq]

/-- The session with an event that has been sent. -/
def noting (s : Session Data) (event : AlertEvent) : Session Data :=
  { s with pending := s.pending.addEvent event }

theorem Ready.noting (hs : Ready s) (event : AlertEvent) : Ready (noting s event) :=
  ⟨hs.active, hs.clean, hs.valid⟩

theorem flush_event (hs : Ready s) (event : AlertEvent) :
    Work.flush false { s with pending := s.pending.addEvent event, dirty := true } =
      (.ok (), noting s event) := by
  have hvalid : Constrained.valid (s.pending.addEvent event) = true := hs.valid
  have hflush := Work.flush_active
    (s := { s with pending := s.pending.addEvent event, dirty := true }) hs.active hvalid
  rw [hflush, noting, ← hs.clean]

theorem scopeOrgsOf_ready (hs : Ready s) (depth : ℕ) (orgId : Option Uuid) (scopeMode : ScopeMode) :
    scopeOrgsOf depth orgId scopeMode s =
      match scopeOrgs depth s.pending.organizations orgId scopeMode with
      | none => (.error (.other "RecursionError"), s)
      | some ids => (.ok ids, s) := by
  unfold scopeOrgsOf
  split_ifs with h
  · obtain ⟨hmode, hkind⟩ := h
    have hpure : scopeOrgs depth s.pending.organizations orgId scopeMode = some orgId.toList := by
      unfold scopeOrgs
      rw [if_neg hmode]
      cases orgId with
      | none => rfl
      | some orgId => exact if_pos (hkind.resolve_left (by simp))
    rw [hpure]
    rfl
  · rw [Work.bind_ok (hs.select _)]
    cases scopeOrgs depth s.pending.organizations orgId scopeMode <;> rfl

theorem ruleScope_ready (hs : Ready s) (alert : Alert) (rule : AlertRule) : ruleScope alert rule s =
      match alert.scope rule s.pending.organizations with
      | none => (.error (.other "RecursionError"), s)
      | some scope => (.ok scope, s) := by
  unfold ruleScope Alert.scope
  split_ifs with h
  · cases rule.orgId with
    | none => rfl
    | some orgId =>
      have hscope := scopeOrgsOf_ready hs alert.depth (some orgId) rule.scopeMode
      dsimp only
      cases horgs : scopeOrgs alert.depth s.pending.organizations (some orgId) rule.scopeMode with
      | none =>
        rw [horgs] at hscope
        exact Work.bind_error hscope
      | some ids =>
        rw [horgs] at hscope
        exact Work.bind_ok hscope
  · have hscope := scopeOrgsOf_ready hs alert.depth none .system
    exact Work.bind_ok hscope

theorem acceptAdmins_ready (hs : Ready s) (template : AlertTemplate) (users : List Recipient) :
    acceptAdmins template users s =
      (.ok (users.filter fun user => !optsOut template (s.pending.prefOf template user)), s) := by
  induction users with
  | nil => rfl
  | cons user users ih =>
    unfold acceptAdmins
    rw [Work.bind_ok (hs.select _), Work.bind_ok ih, List.filter_cons]
    cases optsOut template (s.pending.prefOf template user) <;> rfl

theorem resolveRecipients_ready (hs : Ready s) (template : AlertTemplate) (scopeIds : List Uuid) :
    resolveRecipients template scopeIds s = (.ok (s.pending.recipients template scopeIds), s) := by
  unfold resolveRecipients Data.recipients
  split_ifs
  · rfl
  · rw [Work.bind_ok (hs.select _), Work.bind_ok (hs.select _), Work.bind_ok (acceptAdmins_ready hs _ _)]
    rfl

/-- **One round of the loop over the rules.** -/
theorem alertRule_ready (hs : Ready s) (alert : Alert) (template : AlertTemplate) (rule : AlertRule) :
    match ruleFate alert template rule s.pending with
    | .passed => alertRule alert template rule s = (.ok none, s)
    | .raised => ∃ e, alertRule alert template rule s = (.error e, s)
    | .noted recipients =>
      alertRule alert template rule s =
        (deliver (newEvent alert template rule recipients s.pending.nextEvent) recipients
            (alert.faults rule.id) >>= fun _ =>
          pure (some (newEvent alert template rule recipients s.pending.nextEvent)))
          (noting s (newEvent alert template rule recipients s.pending.nextEvent)) := by
  have hscope := ruleScope_ready hs alert rule
  unfold ruleFate alertRule
  cases hfate : alert.scope rule s.pending.organizations with
  | none =>
    rw [hfate] at hscope
    exact ⟨_, Work.bind_error hscope⟩
  | some scope =>
    rw [hfate] at hscope
    cases scope with
    | none => exact Work.bind_ok hscope
    | some scopeIds =>
      have hselect := hs.select fun data => data.duplicates alert rule
      dsimp only
      cases hduplicates : s.pending.duplicates alert rule with
      | cons event events =>
        rw [hduplicates] at hselect
        cases events with
        | nil => exact (Work.bind_ok hscope).trans (Work.bind_ok hselect)
        | cons other events =>
          exact ⟨.other "MultipleResultsFound", (Work.bind_ok hscope).trans (Work.bind_ok hselect)⟩
      | nil =>
        rw [hduplicates] at hselect
        dsimp only
        generalize hrecipients : s.pending.recipients template scopeIds = recipients
        have hresolve := resolveRecipients_ready hs template scopeIds
        rw [hrecipients] at hresolve
        have hpeek : Work.peek (fun data : Data => newEvent alert template rule recipients data.nextEvent) s =
            (.ok (newEvent alert template rule recipients s.pending.nextEvent), s) := rfl
        have hflush := flush_event hs (newEvent alert template rule recipients s.pending.nextEvent)
        exact (Work.bind_ok hscope).trans <| (Work.bind_ok hselect).trans <|
          (Work.bind_ok hresolve).trans <| (Work.bind_ok hpeek).trans (Work.bind_ok hflush)

/-- In an aborted transaction the rules are passed over that need no statement. -/
theorem alertRule_aborted (hclean : s.dirty = false) (haborted : s.standing = .aborted) (alert : Alert)
    (template : AlertTemplate) (rule : AlertRule) : alertRule alert template rule s =
      if alert.skips rule then (.ok none, s) else (.error .refused, s) := by
  have hselect : ∀ {α : Type} (query : Data → α), Work.select false query s = (.error .refused, s) :=
    fun query => select_aborted hclean haborted false query
  have hscope : ∀ orgId scopeMode, ¬ (scopeMode ≠ .system ∧ (orgId = none ∨ scopeMode = .orgOnly)) →
      scopeOrgsOf alert.depth orgId scopeMode s = (.error .refused, s) := by
    intro orgId scopeMode hkind
    unfold scopeOrgsOf
    rw [if_neg hkind]
    exact Work.bind_error (hselect _)
  unfold alertRule Alert.skips ruleScope
  by_cases hmode : rule.scopeMode = .system
  · rw [if_neg (by simpa using hmode), if_neg (by simp [hmode])]
    exact Work.bind_error (Work.bind_error (hscope none .system (by simp)))
  · rw [if_pos hmode]
    cases rule.orgId with
    | none =>
      rw [if_pos (by simp [hmode])]
      rfl
    | some orgId =>
      dsimp only
      by_cases honly : rule.scopeMode = .orgOnly
      · have hids : scopeOrgsOf alert.depth (some orgId) rule.scopeMode s = (.ok [orgId], s) := by
          unfold scopeOrgsOf
          rw [if_pos ⟨hmode, .inr honly⟩]
          rfl
        by_cases horg : alert.orgId = some orgId
        · rw [if_neg (by simp [horg])]
          have hcovers : (do
              let ids ← scopeOrgsOf alert.depth (some orgId) rule.scopeMode
              return if alert.orgId ∈ ids.map some then some ids else none : Work Data _) s =
              (.ok (some [orgId]), s) := by
            rw [Work.bind_ok hids]
            simp [horg]
          rw [Work.bind_ok hcovers]
          exact Work.bind_error (hselect _)
        · rw [if_pos (by simp [honly, horg])]
          have hpasses : (do
              let ids ← scopeOrgsOf alert.depth (some orgId) rule.scopeMode
              return if alert.orgId ∈ ids.map some then some ids else none : Work Data _) s =
              (.ok none, s) := by
            rw [Work.bind_ok hids]
            simp [horg]
          rw [Work.bind_ok hpasses]
          rfl
      · rw [if_neg (by simp [honly])]
        exact Work.bind_error (Work.bind_error (hscope _ _ (by simp [honly])))

end Rules

/-! ## What becomes of an alert -/

/-- What becomes of an alert. -/
inductive TriggerFate where
  /-- The session can go on with these tables. -/
  | fine (data : Data)
  /-- It returns events that have been rolled back.  What was in the session before has been committed in
  time, or not. -/
  | lost (kept : Bool)
  /-- It raises, and the session cannot go on. -/
  | harmed (kept : Bool)

/-- What becomes of an alert after this call: the tables are those with the event, and those with the rows,
too; `rest` is what becomes of the rules behind it. -/
def NotifyFate.resume (alert : Alert) (rules : List AlertRule) (noted stored : Data) (kept : Bool)
    (rest : Data → Bool → TriggerFate) : NotifyFate → TriggerFate
  | .idle => rest noted kept
  | .refused => .harmed kept
  -- after a rollback the next rule cannot be read
  | .dropped => if rules = [] then .lost kept else .harmed kept
  | .undone => .harmed kept
  | .committed .calm => rest stored true
  | .committed .aborted => if rules.all alert.skips then .fine stored else .harmed true
  | .committed .raised => .harmed true

/-- What becomes of the call for an event. -/
def Alert.callFate (alert : Alert) (rule : AlertRule) (event : AlertEvent) (recipients : List Recipient)
    (data : Data) : NotifyFate :=
  notifyFate (alertKey event.id) event.call (recipients.map Recipient.id) (alert.faults rule.id)
    (data.addEvent event)

/-- The tables with an event and its notifications. -/
def Data.withEvent (data : Data) (event : AlertEvent) (recipients : List Recipient) : Data :=
  (data.addEvent event).withRows event.call (recipients.map Recipient.id)

/-- What becomes of the loop over the rules, with these tables in the session. -/
def rulesFate (alert : Alert) (template : AlertTemplate) : List AlertRule → Data → Bool → TriggerFate
  | [], data, _ => .fine data
  | rule :: rules, data, kept =>
    match ruleFate alert template rule data with
    | .passed => rulesFate alert template rules data kept
    | .raised => .fine data
    | .noted recipients =>
      let event := newEvent alert template rule recipients data.nextEvent
      (alert.callFate rule event recipients data).resume alert rules (data.addEvent event)
        (data.withEvent event recipients) kept (rulesFate alert template rules)

/-- What becomes of an alert. -/
def triggerFate (alert : Alert) (data : Data) : TriggerFate :=
  match data.templateOf alert.templateCode with
  | none => .fine data
  | some template => rulesFate alert template (data.rulesOf alert.templateCode) data false

section Triggers

variable {alert : Alert} {template : AlertTemplate} {rule : AlertRule} {rules : List AlertRule}
  {data : Data} {s t : Session Data} {old new : List MonitoredMachine} {age : ℕ} {kept : Bool}
  {acc : List AlertEvent}

/-- The session can go on with these tables; its machines are the new ones, and those in the database are
the new ones where they have been committed. -/
structure Going (old new : List MonitoredMachine) (age : ℕ) (kept : Bool) (data : Data)
    (s : Session Data) : Prop where
  ready : Ready s
  stored : Constrained.valid s.committed = true
  age_eq : s.age = age
  pending : ∃ deliveries, s.pending = data.withDeliveries deliveries
  machines : data.machines = new
  committed : s.committed.machines = if kept then new else old
  fresh : ∀ event ∈ s.committed.events ++ data.events, event.id < data.nextEvent

/-- The session will commit nothing any more. -/
structure Stuck (machines : List MonitoredMachine) (age : ℕ) (t : Session Data) : Prop where
  committed : t.committed.machines = machines
  standing : t.standing ≠ .active ∨ t.age ≠ age ∧ t.pending = t.committed

/-- The session that is left by an alert. -/
def TriggerFate.Leaves (old new : List MonitoredMachine) (age : ℕ) : TriggerFate → Session Data → Prop
  | .fine data, t => ∃ kept, Going old new age kept data t
  | .lost kept, t => Stuck (if kept then new else old) age t
  | .harmed kept, t => Stuck (if kept then new else old) age t

def TriggerFate.Returns : TriggerFate → Except Raised (List AlertEvent) × Session Data → Prop
  | .fine _, result => ∀ events, result.1 = .ok events → ∀ event ∈ events, event ∈ result.2.committed.events
  | .lost _, result =>
    ∃ events, result.1 = .ok events ∧ ∃ event ∈ events, event ∉ result.2.committed.events
  | .harmed _, result => ∃ e, result.1 = .error e

/-- This is what has become of an alert. -/
structure TriggerFate.Shown (old new : List MonitoredMachine) (age : ℕ) (fate : TriggerFate)
    (result : Except Raised (List AlertEvent) × Session Data) : Prop where
  leaves : fate.Leaves old new age result.2
  returns : fate.Returns result

theorem givenKey_call (event : AlertEvent) : event.call.givenKey = some (alertKey event.id) := by
  refine given_of_ne fun h => ?_
  have hlength := congrArg String.length h
  simp [alertKey] at hlength

theorem deliver_shown (hs : Ready s) (hstored : Constrained.valid s.committed = true) (event : AlertEvent)
    (recipients : List Recipient) (faults : NotifyFaults) :
    (notifyFate (alertKey event.id) event.call (recipients.map Recipient.id) faults s.pending).Shown
      event.call (recipients.map Recipient.id) s (deliver event recipients faults s) := by
  unfold deliver
  split_ifs with hnone
  · rw [hnone]
    exact ⟨(), rfl⟩
  have hcall := notifyFate_shown hs hstored (givenKey_call event) (recipients.map Recipient.id) faults
  revert hcall
  cases notifyFate (alertKey event.id) event.call (recipients.map Recipient.id) faults s.pending with
  | idle =>
    rintro ⟨rows, hrun⟩
    exact ⟨(), Work.bind_ok hrun⟩
  | refused => exact fun hrun => Work.bind_error hrun
  | dropped =>
    rintro ⟨rows, hrun⟩
    exact ⟨(), Work.bind_ok hrun⟩
  | undone => exact fun hrun => Work.bind_error hrun
  | committed after => exact fun h => ⟨h.1, h.2.bind_pure ()⟩

/-- The rest of an alert behind some events. -/
def finish (alert : Alert) (template : AlertTemplate) (age : ℕ) (acc : List AlertEvent)
    (rules : List AlertRule) : Work Data (List AlertEvent) := do
  let events ← alertRules alert template age rules
  Work.commit false
  return acc ++ events

theorem finish_nil (hactive : s.standing = .active) (hvalid : Constrained.valid s.pending = true)
    (acc : List AlertEvent) :
    finish alert template age acc [] s = (.ok acc, { s with dirty := false, committed := s.pending }) := by
  have hcommit : finish alert template age acc [] s =
      (.ok (acc ++ []), { s with dirty := false, committed := s.pending }) :=
    Work.bind_ok (Work.commit_active hactive hvalid)
  rw [hcommit, List.append_nil]

theorem finish_cons (hage : s.age = age) {event : Option AlertEvent}
    (hrule : alertRule alert template rule s = (.ok event, t)) :
    finish alert template age acc (rule :: rules) s =
      finish alert template age (acc ++ event.toList) rules t := by
  have htouch : Work.touch age s = (.ok (), s) := if_pos hage
  have hrules : alertRules alert template age (rule :: rules) s =
      (do let events ← alertRules alert template age rules; return event.toList ++ events :
        Work Data _) t :=
    (Work.bind_ok htouch).trans (Work.bind_ok hrule)
  unfold finish
  rcases hrest : alertRules alert template age rules t with ⟨e | events, u⟩
  · rw [Work.bind_error (hrules.trans (Work.bind_error hrest)), Work.bind_error hrest]
  · rw [Work.bind_ok (hrules.trans (Work.bind_ok hrest)), Work.bind_ok hrest, List.append_assoc]

theorem finish_error (hage : s.age = age) {e : Raised}
    (hrule : alertRule alert template rule s = (.error e, t)) :
    finish alert template age acc (rule :: rules) s = (.error e, t) := by
  have htouch : Work.touch age s = (.ok (), s) := if_pos hage
  exact Work.bind_error ((Work.bind_ok htouch).trans (Work.bind_error hrule))

theorem finish_expired (hage : s.age ≠ age) :
    finish alert template age acc (rule :: rules) s = (.error .missingGreenlet, s) := by
  have htouch : Work.touch age s = (.error .missingGreenlet, s) := if_neg hage
  exact Work.bind_error (Work.bind_error htouch)

/-- In an aborted transaction an alert returns only if it needs no statement; then the transaction ends. -/
theorem finish_aborted (hclean : s.dirty = false) (haborted : s.standing = .aborted) (hage : s.age = age)
    (acc : List AlertEvent) (rules : List AlertRule) : finish alert template age acc rules s =
      if rules.all alert.skips then
        (.ok acc, { s with pending := s.committed, standing := .active })
      else (.error .refused, s) := by
  induction rules with
  | nil =>
    have hcommit : Work.commit false s = (.ok (), { s with pending := s.committed, standing := .active }) := by
      refine (Work.bind_ok (if_pos hclean)).trans ?_
      rw [haborted]
    refine (Work.bind_ok hcommit).trans ?_
    rw [List.append_nil]
    rfl
  | cons rule rules ih =>
    have hrule := alertRule_aborted hclean haborted alert template rule
    rw [List.all_cons]
    cases hskips : alert.skips rule with
    | true =>
      rw [hskips, if_pos rfl] at hrule
      rw [finish_cons hage hrule, Option.toList_none, List.append_nil, ih, Bool.true_and]
    | false =>
      rw [hskips, if_neg (by simp)] at hrule
      rw [finish_error hage hrule, Bool.false_and, if_neg (by simp)]

theorem ruleFate_withDeliveries (deliveries : List Delivery) :
    ruleFate alert template rule (data.withDeliveries deliveries) = ruleFate alert template rule data := rfl

theorem notifyFate_withDeliveries (key : String) (call : NotificationCall) (recipients : List Uuid)
    (faults : NotifyFaults) (deliveries : List Delivery) :
    notifyFate key call recipients faults (data.withDeliveries deliveries) =
      notifyFate key call recipients faults data := by
  cases recipients <;> rfl

theorem Going.noting (hs : Going old new age kept data s) {event : AlertEvent}
    (hid : event.id = data.nextEvent) : Going old new age kept (data.addEvent event) (noting s event) := by
  obtain ⟨deliveries, hpending⟩ := hs.pending
  refine ⟨hs.ready.noting event, hs.stored, hs.age_eq, ⟨deliveries, ?_⟩, hs.machines, hs.committed, ?_⟩
  · change s.pending.addEvent event = _
    rw [hpending]
    rfl
  · intro other hmem
    show other.id < data.nextEvent + 1
    change other ∈ s.committed.events ++ (data.events ++ [event]) at hmem
    rw [← List.append_assoc, List.mem_append, List.mem_singleton] at hmem
    rcases hmem with hmem | rfl
    · have := hs.fresh other hmem
      omega
    · omega

theorem going_of_committed (hdata : Constrained.valid data = true) (hmachines : data.machines = new)
    (hfresh : ∀ event ∈ data.events, event.id < data.nextEvent) (hready : Ready t) (hage : t.age = age)
    (hstored : Stored data t) (hpending : t.pending = t.committed) : Going old new age true data t := by
  obtain ⟨deliveries, hcommitted⟩ := hstored
  refine ⟨hready, by rw [hcommitted]; exact hdata, hage, ⟨deliveries, hpending.trans hcommitted⟩,
    hmachines, by rw [hcommitted]; exact hmachines, ?_⟩
  intro event hmem
  rw [hcommitted] at hmem
  rcases List.mem_append.mp hmem with h | h
  · exact hfresh event h
  · exact hfresh event h

theorem noted_shown (ih : ∀ {acc : List AlertEvent} {data : Data} {kept : Bool} {s : Session Data},
      Going old new age kept data s → (∀ event ∈ acc, event ∈ data.events) →
      (rulesFate alert template rules data kept).Shown old new age
        (finish alert template age acc rules s))
    (hs : Going old new age kept data s) (hacc : ∀ event ∈ acc, event ∈ data.events)
    {event : AlertEvent} (hid : event.id = data.nextEvent) {recipients : List Recipient}
    (hrule : alertRule alert template rule s =
      (deliver event recipients (alert.faults rule.id) >>= fun _ => pure (some event)) (noting s event)) :
    ((alert.callFate rule event recipients data).resume alert rules (data.addEvent event)
        (data.withEvent event recipients) kept (rulesFate alert template rules)).Shown old new age
      (finish alert template age acc (rule :: rules) s) := by
  have hnoted := hs.noting hid
  have hmem : ∀ other ∈ acc ++ [event], other ∈ data.events ++ [event] := by
    intro other hother
    rcases List.mem_append.mp hother with h | h
    · exact List.mem_append_left _ (hacc other h)
    · exact List.mem_append_right _ h
  have hdeliver := deliver_shown hnoted.ready hnoted.stored event recipients (alert.faults rule.id)
  obtain ⟨deliveries, hpending⟩ := hnoted.pending
  rw [hpending, notifyFate_withDeliveries] at hdeliver
  change (alert.callFate rule event recipients data).Shown _ _ _ _ at hdeliver
  cases hfate : alert.callFate rule event recipients data with
  | idle =>
    rw [hfate] at hdeliver
    obtain ⟨a, hrun⟩ := hdeliver
    rw [finish_cons hs.age_eq (hrule.trans (Work.bind_ok hrun))]
    exact ih hnoted hmem
  | refused =>
    rw [hfate] at hdeliver
    rw [finish_error hs.age_eq (hrule.trans (Work.bind_error hdeliver))]
    exact ⟨⟨hs.committed, .inl (by simp)⟩, _, rfl⟩
  | dropped =>
    rw [hfate] at hdeliver
    obtain ⟨a, hrun⟩ := hdeliver
    have hage : (rolledBack (noting s event)).age ≠ age := by
      show s.age + 2 ≠ age
      have := hs.age_eq
      omega
    rw [finish_cons hs.age_eq (hrule.trans (Work.bind_ok hrun)), NotifyFate.resume]
    split_ifs with hlast
    · -- the last rule: the alert returns the event that has just been rolled back
      rw [hlast, finish_nil rfl hs.stored]
      refine ⟨⟨hs.committed, .inr ⟨hage, rfl⟩⟩, _, rfl, event, by simp, fun hevent => ?_⟩
      have := hs.fresh event (List.mem_append_left _ hevent)
      omega
    · obtain ⟨next, others, rfl⟩ := List.exists_cons_of_ne_nil hlast
      rw [finish_expired hage]
      exact ⟨⟨hs.committed, .inr ⟨hage, rfl⟩⟩, _, rfl⟩
  | undone =>
    rw [hfate] at hdeliver
    rw [finish_error hs.age_eq (hrule.trans (Work.bind_error hdeliver))]
    exact ⟨⟨hs.committed, .inl (by simp)⟩, _, rfl⟩
  | committed after =>
    rw [hfate] at hdeliver
    obtain ⟨hrows, hafter⟩ := hdeliver
    have hwith : (noting s event).pending.withRows event.call (recipients.map Recipient.id) =
        (data.withEvent event recipients).withDeliveries deliveries := by
      rw [hpending]
      rfl
    have hvalid : Constrained.valid (data.withEvent event recipients) = true := by
      rw [hwith] at hrows
      exact hrows
    have hstored : ∀ t, Stored ((noting s event).pending.withRows event.call (recipients.map Recipient.id)) t →
        Stored (data.withEvent event recipients) t := by
      rintro t ⟨others, h⟩
      exact ⟨others, h.trans (by rw [hwith]; rfl)⟩
    have hmachines : ∀ t, Stored (data.withEvent event recipients) t → t.committed.machines = new := by
      rintro t ⟨others, h⟩
      rw [h]
      exact hs.machines
    have hfresh : ∀ other ∈ (data.withEvent event recipients).events, other.id < data.nextEvent + 1 :=
      fun other h => hnoted.fresh other (List.mem_append_right _ h)
    cases after with
    | calm =>
      obtain ⟨a, t, hrun, ht, hage, hactive⟩ := hafter
      have hcommitted := hstored t ht.stored
      have hready : Ready t := by
        obtain ⟨others, h⟩ := hcommitted
        exact ⟨hactive, ht.clean, by rw [ht.pending, h]; exact hvalid⟩
      have hgoing : Going old new age true (data.withEvent event recipients) t :=
        going_of_committed hvalid hs.machines hfresh hready (hage.trans hs.age_eq) hcommitted ht.pending
      rw [finish_cons hs.age_eq (hrule.trans (Work.bind_ok hrun))]
      exact ih hgoing hmem
    | aborted =>
      obtain ⟨a, t, hrun, ht, hage, haborted⟩ := hafter
      have hcommitted := hstored t ht.stored
      rw [finish_cons hs.age_eq (hrule.trans (Work.bind_ok hrun)),
        finish_aborted ht.clean haborted (hage.trans hs.age_eq), NotifyFate.resume]
      split_ifs with hskips
      · have hready : Ready { t with pending := t.committed, standing := .active } := by
          obtain ⟨others, h⟩ := hcommitted
          exact ⟨rfl, ht.clean, by rw [h]; exact hvalid⟩
        refine ⟨⟨true, going_of_committed hvalid hs.machines hfresh hready (hage.trans hs.age_eq)
          hcommitted rfl⟩, ?_⟩
        intro events hevents other hother
        cases hevents
        obtain ⟨others, h⟩ := hcommitted
        show other ∈ t.committed.events
        rw [h]
        exact hmem other hother
      · exact ⟨⟨hmachines t hcommitted, .inl (by simp [haborted])⟩, _, rfl⟩
    | raised =>
      obtain ⟨e, t, hrun, ht, hstanding⟩ := hafter
      rw [finish_error hs.age_eq (hrule.trans (Work.bind_error hrun))]
      exact ⟨⟨hmachines t (hstored t ht), .inl hstanding⟩, _, rfl⟩

/-- **What becomes of the loop over the rules**, and of the commit behind it. -/
theorem finish_shown (rules : List AlertRule) (hs : Going old new age kept data s)
    (hacc : ∀ event ∈ acc, event ∈ data.events) :
    (rulesFate alert template rules data kept).Shown old new age
      (finish alert template age acc rules s) := by
  induction rules generalizing acc data kept s with
  | nil =>
    obtain ⟨deliveries, hpending⟩ := hs.pending
    rw [finish_nil hs.ready.active hs.ready.valid]
    have hmem : ∀ event ∈ data.events, event.id < data.nextEvent :=
      fun event h => hs.fresh event (List.mem_append_right _ h)
    have hvalid : Constrained.valid data = true := by
      have h := hs.ready.valid
      rw [hpending] at h
      exact h
    refine ⟨⟨true, going_of_committed hvalid hs.machines hmem ⟨hs.ready.active, rfl, hs.ready.valid⟩
      hs.age_eq ⟨deliveries, hpending⟩ rfl⟩, ?_⟩
    intro events hevents event hevent
    cases hevents
    show event ∈ s.pending.events
    rw [hpending]
    exact hacc event hevent
  | cons rule rules ih =>
    obtain ⟨deliveries, hpending⟩ := hs.pending
    have hrule := alertRule_ready hs.ready alert template rule
    rw [hpending, ruleFate_withDeliveries] at hrule
    unfold rulesFate
    cases hfate : ruleFate alert template rule data with
    | passed =>
      rw [hfate] at hrule
      rw [finish_cons hs.age_eq hrule, Option.toList_none, List.append_nil]
      exact ih hs hacc
    | raised =>
      rw [hfate] at hrule
      obtain ⟨e, hrule⟩ := hrule
      rw [finish_error hs.age_eq hrule]
      exact ⟨⟨kept, hs⟩, fun events hevents => by cases hevents⟩
    | noted recipients =>
      rw [hfate] at hrule
      exact noted_shown ih hs hacc rfl hrule

/-- **What becomes of an alert.** -/
theorem triggerAlert_shown (alert : Alert) (hs : Going old new age false data s) :
    (triggerFate alert data).Shown old new age (triggerAlert alert s) := by
  obtain ⟨deliveries, hpending⟩ := hs.pending
  have hsame : (TriggerFate.fine data).Shown old new age (.ok [], s) :=
    ⟨⟨false, hs⟩, fun events hevents => by cases hevents; simp⟩
  have htemplate := hs.ready.select fun data => data.templateOf alert.templateCode
  have hrules := hs.ready.select fun data => data.rulesOf alert.templateCode
  rw [hpending] at htemplate hrules
  unfold triggerAlert triggerFate
  rw [Work.bind_ok htemplate]
  change TriggerFate.Shown old new age _
    ((match data.templateOf alert.templateCode with
      | none => pure []
      | some template => do
        let rules ← Work.select false fun data => data.rulesOf alert.templateCode
        let age ← Work.stamp
        if rules = [] then return []
        else
          let events ← alertRules alert template age rules
          Work.commit false
          return events : Work Data _) s)
  cases data.templateOf alert.templateCode with
  | none => exact hsame
  | some template =>
    have hstamp : (Work.stamp : Work Data ℕ) s = (.ok age, s) := by
      rw [← hs.age_eq]
      rfl
    dsimp only
    rw [Work.bind_ok hrules, Work.bind_ok hstamp]
    change (rulesFate alert template (data.rulesOf alert.templateCode) data false).Shown old new age
      ((if data.rulesOf alert.templateCode = [] then return []
        else do
          let events ← alertRules alert template age (data.rulesOf alert.templateCode)
          Work.commit false
          return events : Work Data _) s)
    split_ifs with hnone
    · rw [hnone]
      exact hsame
    · exact finish_shown (data.rulesOf alert.templateCode) hs (fun _ h => absurd h List.not_mem_nil)

end Triggers

/-- An event that an alert returns has been rolled back. -/
def TriggerFate.loses : TriggerFate → Bool
  | .fine _ => false
  | .lost _ => true
  | .harmed _ => false

/-- **The events are kept**: all that an alert returns are in the database. -/
def EventsKept (alert : Alert) (s : Session Data) : Prop :=
  ∀ events t, triggerAlert alert s = (.ok events, t) → ∀ event ∈ events, event ∈ t.committed.events

/-- An alert begins with a query, which sends what the session has changed before. -/
theorem triggerAlert_clean {s : Session Data} (alert : Alert) (hactive : s.standing = .active)
    (hvalid : Constrained.valid s.pending = true) :
    triggerAlert alert s = triggerAlert alert { s with dirty := false } := by
  have hdirty := Work.select_active hactive hvalid fun data => data.templateOf alert.templateCode
  have hclean := Work.select_active (s := { s with dirty := false }) hactive hvalid
    fun data => data.templateOf alert.templateCode
  unfold triggerAlert
  rw [Work.bind_ok hdirty, Work.bind_ok hclean]

/-- **An alert keeps its events exactly when** the call for the last rule is not rolled back. -/
theorem eventsKept_iff {s : Session Data} (alert : Alert) (hactive : s.standing = .active)
    (hvalid : Constrained.valid s.pending = true) (hstored : Constrained.valid s.committed = true)
    (hfresh : ∀ event ∈ s.committed.events ++ s.pending.events, event.id < s.pending.nextEvent) :
    EventsKept alert s ↔ (triggerFate alert s.pending).loses = false := by
  have hgoing : Going s.committed.machines s.pending.machines s.age false s.pending
      { s with dirty := false } :=
    ⟨⟨hactive, rfl, hvalid⟩, hstored, rfl, ⟨s.pending.sent.deliveries, rfl⟩, rfl, rfl, hfresh⟩
  have hshown := triggerAlert_shown alert hgoing
  unfold EventsKept
  rw [triggerAlert_clean alert hactive hvalid]
  generalize triggerAlert alert { s with dirty := false } = result at hshown
  obtain ⟨r, u⟩ := result
  cases hfate : triggerFate alert s.pending with
  | fine data =>
    rw [hfate] at hshown
    refine iff_of_true ?_ rfl
    intro events t hrun
    cases hrun
    exact hshown.2 events rfl
  | lost kept =>
    rw [hfate] at hshown
    refine iff_of_false ?_ (by simp [TriggerFate.loses])
    intro hkept
    obtain ⟨-, events, hevents, event, hmem, hlost⟩ := hshown
    exact hlost (hkept events u (congrArg (·, u) hevents) event hmem)
  | harmed kept =>
    rw [hfate] at hshown
    refine iff_of_true ?_ rfl
    intro events t hrun
    obtain ⟨-, e, he⟩ := hshown
    cases hrun
    cases he

/-! ## What becomes of a sweep -/

/-- What becomes of the alert for a machine. -/
def Sweep.machineFate (sweep : Sweep) (m : MonitoredMachine) (data : Data) : TriggerFate :=
  if data.rulesOf "machine_offline" = [] then .fine (data.setOffline m.id)
  else triggerFate (sweep.alert m) (data.setOffline m.id)

/-- The sweep comes off: no alert but that for the last machine harms the session, and that one only after
the machine has been committed. -/
def Sweep.comesOff (sweep : Sweep) : List MonitoredMachine → Data → Bool
  | [], _ => true
  | m :: machines, data =>
    match sweep.machineFate m data with
    | .fine data => sweep.comesOff machines data
    | .lost kept => decide (machines = []) && kept
    | .harmed kept => decide (machines = []) && kept

/-- **The machines are kept**: after the sweep every machine of the batch is offline in the database. -/
def MachinesKept (sweep : Sweep) (data : Data) : Prop :=
  ∀ m ∈ data.stale sweep.cutoff, ∃ m' ∈ (sweep.sweepOffline (.start data)).2.committed.machines,
    m'.id = m.id ∧ m'.status = "offline"

/-- The machines with some of them set offline. -/
def markOffline (ids : List Uuid) (machines : List MonitoredMachine) : List MonitoredMachine :=
  machines.map fun m => if m.id ∈ ids then { m with status := "offline" } else m

section Sweeps

variable {sweep : Sweep} {m : MonitoredMachine} {machines all : List MonitoredMachine} {ids : List Uuid}
  {data : Data} {s t : Session Data} {old new : List MonitoredMachine} {age : ℕ} {kept : Bool}

theorem markOffline_nil (machines : List MonitoredMachine) : markOffline [] machines = machines := by
  simp [markOffline]

theorem setOffline_markOffline (h : data.machines = markOffline ids all) (id : Uuid) :
    (data.setOffline id).machines = markOffline (id :: ids) all := by
  show data.machines.map _ = _
  rw [h, markOffline, markOffline, List.map_map]
  refine List.map_congr_left fun m _ => ?_
  rcases eq_or_ne m.id id with rfl | hne
  · by_cases hid : m.id ∈ ids <;> simp [hid]
  · by_cases hid : m.id ∈ ids <;> simp [hid, hne]

/-- **Which machines are offline.** -/
theorem offline_iff (hids : (all.map MonitoredMachine.id).Nodup) (hm : m ∈ all)
    (honline : m.status = "online") :
    (∃ m' ∈ markOffline ids all, m'.id = m.id ∧ m'.status = "offline") ↔ m.id ∈ ids := by
  constructor
  · rintro ⟨m', hmem, hid, hoffline⟩
    obtain ⟨m₀, hmem₀, rfl⟩ := List.mem_map.mp hmem
    by_contra hnot
    have hid₀ : m₀.id = m.id := by
      by_cases h : m₀.id ∈ ids
      · simpa [h] using hid
      · simpa [h] using hid
    obtain rfl : m₀ = m := List.inj_on_of_nodup_map hids hmem₀ hm hid₀
    rw [if_neg hnot, honline] at hoffline
    exact absurd hoffline (by decide)
  · intro hmem
    refine ⟨_, List.mem_map.mpr ⟨m, hm, rfl⟩, ?_⟩
    rw [if_pos hmem]
    exact ⟨rfl, rfl⟩

/-- **One round of the sweep** in a session that can go on. -/
theorem sweepMachine_shown (sweep : Sweep) (hs : Going old data.machines age kept data s)
    (m : MonitoredMachine) : ∃ t, sweepMachine sweep age m s = (.ok (), t) ∧
      (sweep.machineFate m data).Leaves s.committed.machines (data.setOffline m.id).machines age t := by
  obtain ⟨deliveries, hpending⟩ := hs.pending
  have hchange : Work.change (Data.setOffline m.id) s =
      (.ok (), { s with pending := s.pending.setOffline m.id, dirty := true }) := rfl
  have htouch : Work.touch age { s with pending := s.pending.setOffline m.id, dirty := true } =
      (.ok (), { s with pending := s.pending.setOffline m.id, dirty := true }) := if_pos hs.age_eq
  have hvalid : Constrained.valid (s.pending.setOffline m.id) = true := hs.ready.valid
  have hselect := Work.select_active
    (s := { s with pending := s.pending.setOffline m.id, dirty := true }) hs.ready.active hvalid
    fun data => (data.rulesOf "machine_offline").head?
  have hgoing : Going s.committed.machines (data.setOffline m.id).machines age false
      (data.setOffline m.id) { s with pending := s.pending.setOffline m.id, dirty := false } := by
    refine ⟨⟨hs.ready.active, rfl, hvalid⟩, hs.stored, hs.age_eq, ⟨deliveries, ?_⟩, rfl, rfl, hs.fresh⟩
    rw [hpending]
    rfl
  have hrules : (s.pending.setOffline m.id).rulesOf "machine_offline" = data.rulesOf "machine_offline" := by
    rw [hpending]
    rfl
  rw [hrules] at hselect
  unfold sweepMachine Sweep.machineFate
  rw [Work.bind_ok hchange, Work.bind_ok htouch]
  by_cases hnone : data.rulesOf "machine_offline" = []
  · rw [if_pos hnone]
    rw [hnone] at hselect
    exact ⟨_, Work.attempt_ok (Work.bind_ok hselect), false, hgoing⟩
  · rw [if_neg hnone]
    obtain ⟨rule, rules, hsome⟩ := List.exists_cons_of_ne_nil hnone
    rw [hsome] at hselect
    have hshown := triggerAlert_shown (sweep.alert m) hgoing
    rcases htrigger : triggerAlert (sweep.alert m)
        { s with pending := s.pending.setOffline m.id, dirty := false } with ⟨e | events, t⟩
    · rw [htrigger] at hshown
      exact ⟨t, Work.attempt_error ((Work.bind_ok hselect).trans (Work.bind_error htrigger)), hshown.leaves⟩
    · rw [htrigger] at hshown
      exact ⟨t, Work.attempt_ok ((Work.bind_ok hselect).trans (Work.bind_ok htrigger)), hshown.leaves⟩

theorem sweepMachine_stuck (sweep : Sweep) (hs : Stuck machines age s) (m : MonitoredMachine) :
    (∃ t, sweepMachine sweep age m s = (.ok (), t) ∧ Stuck machines age t) ∨
      ∃ e t, sweepMachine sweep age m s = (.error e, t) ∧ t.committed.machines = machines := by
  have hchange : Work.change (Data.setOffline m.id) s =
      (.ok (), { s with pending := s.pending.setOffline m.id, dirty := true }) := rfl
  unfold sweepMachine
  rw [Work.bind_ok hchange]
  by_cases hage : s.age = age
  · have hstanding : s.standing ≠ .active := hs.standing.resolve_right fun h => h.1 hage
    have htouch : Work.touch age { s with pending := s.pending.setOffline m.id, dirty := true } =
        (.ok (), { s with pending := s.pending.setOffline m.id, dirty := true }) := if_pos hage
    rw [Work.bind_ok htouch]
    obtain ⟨e, t, hselect, ht⟩ : ∃ e t, Work.select false
        (fun data => (data.rulesOf "machine_offline").head?)
        { s with pending := s.pending.setOffline m.id, dirty := true } = (.error e, t) ∧
          Stuck machines age t := by
      have hkind : s.standing = .aborted ∨ s.standing = .inactive := by
        cases h : s.standing with
        | active => exact absurd h hstanding
        | aborted => exact .inl rfl
        | inactive => exact .inr rfl
      rcases hkind with h | h
      · have hflush := Work.flush_aborted false
          (s := { s with pending := s.pending.setOffline m.id, dirty := true }) rfl h
        exact ⟨_, _, Work.bind_error hflush, hs.committed, .inl (by simp [Work.collapse])⟩
      · have hflush := Work.flush_inactive false
          (s := { s with pending := s.pending.setOffline m.id, dirty := true }) rfl h
        exact ⟨_, _, Work.bind_error hflush, hs.committed, .inl hstanding⟩
    exact .inl ⟨t, Work.attempt_error (Work.bind_error hselect), ht⟩
  · -- the attributes of the machine have expired
    have htouch : Work.touch age { s with pending := s.pending.setOffline m.id, dirty := true } =
        (.error .missingGreenlet, { s with pending := s.pending.setOffline m.id, dirty := true }) :=
      if_neg hage
    exact .inr ⟨_, _, Work.bind_error htouch, hs.committed⟩

/-- The loop over the machines, and the commit behind it. -/
def sweepRest (sweep : Sweep) (age : ℕ) (machines : List MonitoredMachine) : Work Data Unit := do
  machines.forM (sweepMachine sweep age)
  Work.commit false

theorem sweepRest_cons (h : sweepMachine sweep age m s = (.ok (), t)) :
    sweepRest sweep age (m :: machines) s = sweepRest sweep age machines t := by
  unfold sweepRest
  rcases hrest : machines.forM (sweepMachine sweep age) t with ⟨e | u, v⟩
  · rw [Work.bind_error hrest]
    exact Work.bind_error ((Work.bind_ok h).trans hrest)
  · rw [Work.bind_ok hrest]
    exact Work.bind_ok ((Work.bind_ok h).trans hrest)

theorem sweepRest_error {e : Raised} (h : sweepMachine sweep age m s = (.error e, t)) :
    sweepRest sweep age (m :: machines) s = (.error e, t) :=
  Work.bind_error (Work.bind_error h)

theorem sweepRest_stuck (sweep : Sweep) (rest : List MonitoredMachine) (hs : Stuck machines age s) :
    (sweepRest sweep age rest s).2.committed.machines = machines := by
  induction rest generalizing s with
  | nil =>
    show (Work.commit false s).2.committed.machines = machines
    rcases Work.committed_commit false s with h | ⟨hactive, h⟩
    · rw [h, hs.committed]
    · have hpending := (hs.standing.resolve_left (not_not.mpr hactive)).2
      rw [h, hpending, hs.committed]
  | cons m rest ih =>
    rcases sweepMachine_stuck sweep hs m with ⟨t, hrun, ht⟩ | ⟨e, t, hrun, ht⟩
    · rw [sweepRest_cons hrun]
      exact ih ht
    · rw [sweepRest_error hrun]
      exact ht

/-- **What a sweep commits**: where it comes off all of its machines are offline, and otherwise one of them
is not. -/
theorem sweepRest_shown (sweep : Sweep) (rest : List MonitoredMachine) {done : List Uuid}
    (hs : Going old data.machines age kept data s) (hmachines : data.machines = markOffline ids all)
    (hdone : s.committed.machines = markOffline done all)
    (hnodup : (rest.map MonitoredMachine.id).Nodup)
    (hids : ∀ m ∈ rest, m.id ∉ ids) (hsub : ∀ id ∈ done, id ∈ ids) :
    ∃ offline, (sweepRest sweep age rest s).2.committed.machines = markOffline offline all ∧
      ((∀ id ∈ ids, id ∈ offline) ∧ (∀ m ∈ rest, m.id ∈ offline) ↔
        sweep.comesOff rest data = true) := by
  induction rest generalizing data s ids done old kept with
  | nil =>
    have hcommit : sweepRest sweep age [] s = (.ok (), { s with dirty := false, committed := s.pending }) :=
      Work.commit_active hs.ready.active hs.ready.valid
    obtain ⟨deliveries, hpending⟩ := hs.pending
    refine ⟨ids, ?_, by simp [Sweep.comesOff]⟩
    rw [hcommit]
    show s.pending.machines = _
    rw [hpending]
    exact hmachines
  | cons m rest ih =>
    obtain ⟨t, hrun, ht⟩ := sweepMachine_shown sweep hs m
    have hnew := setOffline_markOffline hmachines m.id
    rw [List.map_cons, List.nodup_cons] at hnodup
    have hrest : ∀ m' ∈ rest, m'.id ∉ m.id :: ids := by
      intro m' hm' hmem
      rcases List.mem_cons.mp hmem with h | h
      · exact hnodup.1 (h ▸ List.mem_map_of_mem hm')
      · exact hids m' (List.mem_cons_of_mem m hm') h
    -- after an alert that has harmed the session nothing is committed any more
    have hharm : ∀ kept, Stuck (if kept then (data.setOffline m.id).machines else s.committed.machines) age t →
        ∃ offline, (sweepRest sweep age rest t).2.committed.machines = markOffline offline all ∧
          ((∀ id ∈ ids, id ∈ offline) ∧ (∀ m' ∈ m :: rest, m'.id ∈ offline) ↔
            (decide (rest = []) && kept) = true) := by
      intro kept hstuck
      have hcommitted := sweepRest_stuck sweep rest hstuck
      cases kept with
      | false =>
        refine ⟨done, hcommitted.trans hdone, iff_of_false ?_ (by simp)⟩
        rintro ⟨-, hall⟩
        exact hids m List.mem_cons_self (hsub m.id (hall m List.mem_cons_self))
      | true =>
        refine ⟨m.id :: ids, hcommitted.trans hnew, ?_⟩
        cases rest with
        | nil => simp +contextual
        | cons next rest =>
          refine iff_of_false ?_ (by simp)
          rintro ⟨-, hall⟩
          exact hrest next List.mem_cons_self (hall next (by simp))
    rw [sweepRest_cons hrun, Sweep.comesOff]
    cases hfate : sweep.machineFate m data with
    | fine data' =>
      rw [hfate] at ht
      obtain ⟨kept, hgoing⟩ := ht
      have hmachines' : data'.machines = markOffline (m.id :: ids) all := hgoing.machines.trans hnew
      have hdone' : t.committed.machines = markOffline (if kept then m.id :: ids else done) all := by
        rw [hgoing.committed]
        cases kept with
        | false => exact hdone
        | true => exact hnew
      have hsub' : ∀ id ∈ (if kept then m.id :: ids else done), id ∈ m.id :: ids := by
        cases kept with
        | false => exact fun id h => List.mem_cons_of_mem m.id (hsub id h)
        | true => exact fun id h => h
      rw [← hgoing.machines] at hgoing
      obtain ⟨offline, hoffline, hiff⟩ := ih hgoing hmachines' hdone' hnodup.2 hrest hsub'
      refine ⟨offline, hoffline, ?_⟩
      rw [← hiff, List.forall_mem_cons, List.forall_mem_cons]
      exact and_left_comm.trans (and_assoc.symm)
    | lost kept =>
      rw [hfate] at ht
      exact hharm kept ht
    | harmed kept =>
      rw [hfate] at ht
      exact hharm kept ht

/-- **A sweep keeps its machines exactly when** it comes off. -/
theorem machinesKept_iff (sweep : Sweep) (hvalid : Constrained.valid data = true)
    (hids : (data.machines.map MonitoredMachine.id).Nodup)
    (hfresh : ∀ event ∈ data.events, event.id < data.nextEvent) :
    MachinesKept sweep data ↔ sweep.comesOff (data.stale sweep.cutoff) data = true := by
  have hready : Ready (.start data) := ready_start hvalid
  have hgoing : Going data.machines data.machines 0 false data (.start data) := by
    refine ⟨hready, hvalid, rfl, ⟨data.sent.deliveries, rfl⟩, rfl, rfl, fun event h => ?_⟩
    rcases List.mem_append.mp h with h | h
    · exact hfresh event h
    · exact hfresh event h
  have hselect : Work.select false (fun data : Data => data.stale sweep.cutoff) (.start data) =
      (.ok (data.stale sweep.cutoff), .start data) := hready.select _
  have hstale : ∀ m ∈ data.stale sweep.cutoff, m ∈ data.machines ∧ m.status = "online" := by
    intro m hm
    obtain ⟨hmem, hwhy⟩ := List.mem_filter.mp hm
    rw [Bool.and_eq_true] at hwhy
    exact ⟨hmem, of_decide_eq_true hwhy.1⟩
  by_cases hnone : data.stale sweep.cutoff = []
  · rw [MachinesKept, hnone]
    simp [Sweep.comesOff]
  · have hrun : sweep.sweepOffline (.start data) =
        sweepRest sweep 0 (data.stale sweep.cutoff) (.start data) := by
      unfold Sweep.sweepOffline sweepRest
      rw [Work.bind_ok hselect]
      show ((data.stale sweep.cutoff).forM (sweepMachine sweep 0) >>= fun _ =>
        if data.stale sweep.cutoff ≠ [] then Work.commit false else pure ()) (.start data) = _
      rw [if_pos hnone]
    have hnodup : ((data.stale sweep.cutoff).map MonitoredMachine.id).Nodup :=
      hids.sublist (List.filter_sublist.map _)
    have hnone : data.machines = markOffline [] data.machines := (markOffline_nil _).symm
    obtain ⟨offline, hoffline, hiff⟩ := sweepRest_shown sweep (data.stale sweep.cutoff) hgoing hnone hnone
      hnodup (fun _ _ => List.not_mem_nil) (fun _ h => absurd h List.not_mem_nil)
    rw [← hiff, and_iff_right (by simp), MachinesKept, hrun, hoffline]
    refine forall₂_congr fun m hm => ?_
    obtain ⟨hmem, honline⟩ := hstale m hm
    exact offline_iff hids hmem honline

end Sweeps

/-- **The work is kept exactly when** the call for the last rule is not rolled back and the sweep comes
off. -/
theorem work_kept_iff (alert : Alert) (sweep : Sweep) {s : Session Data} {data : Data}
    (hactive : s.standing = .active) (hpending : Constrained.valid s.pending = true)
    (hstored : Constrained.valid s.committed = true)
    (hfresh : ∀ event ∈ s.committed.events ++ s.pending.events, event.id < s.pending.nextEvent)
    (hvalid : Constrained.valid data = true) (hids : (data.machines.map MonitoredMachine.id).Nodup)
    (hnew : ∀ event ∈ data.events, event.id < data.nextEvent) :
    (EventsKept alert s ↔ (triggerFate alert s.pending).loses = false) ∧
      (MachinesKept sweep data ↔ sweep.comesOff (data.stale sweep.cutoff) data = true) :=
  ⟨eventsKept_iff alert hactive hpending hstored hfresh, machinesKept_iff sweep hvalid hids hnew⟩

/-! ### One recipient and two -/

/-- A machine that has gone offline, and a rule for its organisation. -/
def exampleFleet (users : List Recipient) : Data :=
  { twoAdmins with
    users := users
    templates := [⟨"machine_offline", true, "warning", []⟩]
    rules := [⟨1, "machine_offline", some 1, .orgOnly, true⟩]
    machines := [⟨7, 1, "online", none⟩] }

/-- A sweep in which the server refuses nothing. -/
def calmSweep : Sweep where
  cutoff := 0
  depth := 10
  title _ := "PC-01"
  body _ := none
  context _ := []
  fingerprint _ _ := "f"
  faults _ _ := calmServer

/-- The alert for this machine. -/
def exampleAlert : Alert := calmSweep.alert ⟨7, 1, "online", none⟩

theorem work_kept_one :
    EventsKept exampleAlert (.start (exampleFleet [⟨1, 1, .superAdmin, true, none⟩])) ∧
      MachinesKept calmSweep (exampleFleet [⟨1, 1, .superAdmin, true, none⟩]) := by
  have hvalid : Constrained.valid (exampleFleet [⟨1, 1, .superAdmin, true, none⟩]) = true := by decide
  have hids : ((exampleFleet [⟨1, 1, .superAdmin, true, none⟩]).machines.map MonitoredMachine.id).Nodup := by
    decide
  have h := work_kept_iff exampleAlert calmSweep
    (s := .start (exampleFleet [⟨1, 1, .superAdmin, true, none⟩])) rfl hvalid hvalid (by decide) hvalid hids
    (by decide)
  exact ⟨h.1.mpr (by decide +kernel), h.2.mpr (by decide +kernel)⟩

/-- **Two administrators**: the notification is rolled back, and with it the event that the alert returns,
and the status of the machine. -/
theorem machine_stays_online : ¬ EventsKept exampleAlert (.start (exampleFleet twoAdmins.users)) ∧
      ¬ MachinesKept calmSweep (exampleFleet twoAdmins.users) := by
  constructor
  · intro h
    have hrun : (triggerAlert exampleAlert (.start (exampleFleet twoAdmins.users))).1.toOption.map
          (List.map AlertEvent.id) = some [1] ∧
        (triggerAlert exampleAlert (.start (exampleFleet twoAdmins.users))).2.committed.events = [] := by
      decide +kernel
    rcases htrigger : triggerAlert exampleAlert (.start (exampleFleet twoAdmins.users)) with
      ⟨e | events, t⟩
    · rw [htrigger] at hrun
      cases hrun.1
    · rw [htrigger] at hrun
      have hids : events.map AlertEvent.id = [1] := Option.some.inj hrun.1
      obtain ⟨event, rest, rfl, -⟩ := List.map_eq_cons_iff.mp hids
      have hmem := h _ t htrigger event List.mem_cons_self
      rw [hrun.2] at hmem
      exact absurd hmem List.not_mem_nil
  · intro h
    have hrun : (calmSweep.sweepOffline (.start (exampleFleet twoAdmins.users))).2.committed.machines =
        [⟨7, 1, "online", none⟩] := by
      decide +kernel
    obtain ⟨m', hmem, -, hoffline⟩ := h ⟨7, 1, "online", none⟩ (by decide)
    rw [hrun, List.mem_singleton] at hmem
    rw [hmem] at hoffline
    exact absurd hoffline (by decide)

end AssetInventory.Monitor

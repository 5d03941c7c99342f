import AssetInventory.Lib.Answers
import AssetInventory.Lib.Holding
import AssetInventory.Monitor.Alerts

/-!
# Alerts raised at once

Several calls of `trigger_alert` run at once, each in a transaction of its own.  A call looks an event up
before it inserts it.  Behind this stands the unique key of the table, which does not know events about no
machine.

* `triggerAlert`: a call, as a program of statements.
* `OncePerDay`, `NeverCollides`: what is expected of the table, and of the calls.
* `FirstOfKind`, `StillFree`: nobody else records an event between the query for it and its commit, or
  its insert.
* `oncePerDay_of_runs`: this suffices.
* `overlapping_calls`: two calls for no machine record an event twice, and of two calls for one machine
  the second one raises.
-/

namespace AssetInventory.Monitor.Triggers

open PyJson PyTime UnitOfWork Server ReadCommitted Interleaving

/-! ## `trigger_alert` -/

/-- An entry of `uq_alert_event`. -/
structure EventKey where
  ruleId : Uuid
  machineId : Uuid
  fingerprint : String
  deriving DecidableEq

inductive DataWrite where
  | event (event : AlertEvent)
  | notifications (rows : List Notification)

instance : Applies DataWrite Data where
  apply
    | .event event, data => data.addEvent event
    | .notifications rows, data => data.send (Sent.add rows)

/-- What a call is told. -/
structure Env where
  now : Time
  /-- What is read of the organisation and of the machine. -/
  defaults : List (String × Json)

/-- A part of a call. -/
abbrev Trigger (α : Type) : Type := Prog Data EventKey DataWrite Env Empty α

/-- What a call raises. -/
inductive AlertFailure where
  /-- `MultipleResultsFound`: the query finds several events. -/
  | duplicates
  /-- `IntegrityError`: the unique key refuses the event. -/
  | taken
  /-- The server refuses a statement. -/
  | refused
  | missingGreenlet
  | recursion
  deriving DecidableEq

structure TriggerCall where
  templateCode : String
  orgId : Option Uuid
  machineId : Option Uuid
  context : List (String × Json)
  /-- The texts of a template in a context. -/
  render : AlertTemplate → List (String × Json) → String × Option String
  /-- How deep the interpreter lets a recursion go. -/
  depth : ℕ
  /-- What the server refuses of the notification for a rule. -/
  faults : Uuid → NotifyFaults

/-- `strftime("%Y-%m-%d")` of a day. -/
def formatDay (day : ℤ) : String :=
  let (year, month, day) := civil day
  toString year ++ "-" ++ zeroPad 2 month ++ "-" ++ zeroPad 2 day

/-- `_fingerprint`, on a day. -/
def fingerprint (sha256 : String → String) (ruleId : Uuid) (machineId : Option Uuid) (templateCode : String)
    (day : ℤ) : String :=
  sha256 (toString ruleId ++ ":" ++ machineId.elim "None" toString ++ ":" ++ templateCode ++ ":" ++
    formatDay day)

/-- `ctx.setdefault`, for some entries. -/
def setDefaults (context : List (String × Json)) : List (String × Json) → List (String × Json)
  | [] => context
  | entry :: defaults =>
    setDefaults (if entry.1 ∈ context.map Prod.fst then context else context ++ [entry]) defaults

/-- The alert of a call, on a day. -/
def TriggerCall.alert (call : TriggerCall) (sha256 : String → String) (template : AlertTemplate)
    (context : List (String × Json)) (day : ℤ) : Alert where
  templateCode := call.templateCode
  orgId := call.orgId
  machineId := call.machineId
  title := (call.render template context).1
  body := (call.render template context).2
  context := context
  fingerprint ruleId := fingerprint sha256 ruleId call.machineId call.templateCode day
  depth := call.depth
  faults := call.faults

/-- `scope_orgs`, with its statement; `none` is a `RecursionError`. -/
def scopeOrgsOf (depth : ℕ) (orgId : Option Uuid) (scopeMode : ScopeMode) : Trigger (Option (List Uuid)) :=
  if scopeMode ≠ .system ∧ (orgId = none ∨ scopeMode = .orgOnly) then return some orgId.toList
  else do
    let rows ← .select Data.organizations
    return scopeOrgs depth rows orgId scopeMode

/-- `org_id in scope_ids`. -/
def inScope (orgId : Option Uuid) (scopeIds : List Uuid) : Bool :=
  orgId.any fun id => decide (id ∈ scopeIds)

theorem inScope_iff {orgId : Option Uuid} {scopeIds : List Uuid} :
    inScope orgId scopeIds = true ↔ orgId ∈ scopeIds.map some := by
  cases orgId <;> simp [inScope]

/-- `scope_ids` of a rule; `none` if the rule is passed over. -/
def ruleScope (call : TriggerCall) (rule : AlertRule) :
    Trigger (Except AlertFailure (Option (List Uuid))) :=
  if rule.scopeMode ≠ .system then
    match rule.orgId with
    | none => return .ok none
    | some orgId => do
      let ids ← scopeOrgsOf call.depth (some orgId) rule.scopeMode
      return match ids with
        | none => .error .recursion
        | some ids => .ok (if inScope call.orgId ids then some ids else none)
  else do
    let ids ← scopeOrgsOf call.depth none .system
    return match ids with
      | none => .error .recursion
      | some ids => .ok (some ids)

/-- The organisation administrators that are notified. -/
def acceptAdmins (template : AlertTemplate) : List Recipient → Trigger (List Recipient)
  | [] => return []
  | user :: users => do
    let pref ← .select fun data => data.prefOf template user
    let accepted ← acceptAdmins template users
    return if optsOut template pref then accepted else user :: accepted

def resolveRecipients (template : AlertTemplate) (scopeIds : List Uuid) : Trigger (List Recipient) :=
  if scopeIds = [] then return []
  else do
    let orgAdmins ← .select fun data => data.orgAdmins scopeIds
    let supers ← .select Data.supers
    let accepted ← acceptAdmins template orgAdmins
    return dedup [] (accepted ++ supers)

/-- The event is one of a rule, for a machine or for none, with a fingerprint. -/
def isOf (ruleId : Uuid) (machineId : Option Uuid) (fingerprint : String) (event : AlertEvent) : Bool :=
  decide (event.ruleId = ruleId ∧ event.machineId = machineId ∧ event.fingerprint = fingerprint)

/-- The events of a rule for a machine, or for none, with a fingerprint. -/
def recorded (data : Data) (ruleId : Uuid) (machineId : Option Uuid) (fingerprint : String) :
    List AlertEvent := data.events.filter (isOf ruleId machineId fingerprint)

/-- `db.add` and `db.flush` of an event: whether the unique key admits it. -/
def insertEvent (event : AlertEvent) : Trigger Bool :=
  match event.machineId with
  | none => do
    Prog.insert (.event event)
    return true
  | some machineId => do
    let data ← .update ⟨event.ruleId, machineId, event.fingerprint⟩ fun data =>
      if recorded data event.ruleId (some machineId) event.fingerprint = [] then [.event event] else []
    return decide (recorded data event.ruleId (some machineId) event.fingerprint = [])

/-- The rows under a key; `none` if the server refuses the query. -/
def withKey (fault : Bool) (key : String) : Trigger (Option (List Notification)) :=
  if fault || key.toList.contains (Char.ofNat 0) then return none
  else do
    let rows ← .select fun data => data.sent.notifications.filter fun n => decide (n.idempotencyKey = some key)
    return some rows

/-- The first query for the key. -/
def existingRows (fault : Bool) (call : NotificationCall) : Trigger (Option (List Notification)) :=
  match call.givenKey with
  | none => return some []
  | some key => withKey fault key

/-- The rows for the recipients, with new ids. -/
def newRows (call : NotificationCall) : List Uuid → Trigger (List Notification)
  | [] => return []
  | recipient :: recipients => do
    let id ← .fresh
    let rows ← newRows call recipients
    return call.row id recipient :: rows

/-- The server takes the rows. -/
def admitsRows (fault : Bool) (rows : List Notification) (data : Data) : Bool :=
  !fault && Constrained.valid (data.send (Sent.add rows))

/-- The rows are inserted, if the server takes them. -/
def insertRows (fault : Bool) (rows : List Notification) : Trigger Bool :=
  .write none (fun data => if admitsRows fault rows data then [.notifications rows] else []) fun data =>
    return admitsRows fault rows data

/-- After a commit that was refused. -/
def afterRefusal (fault : Bool) (call : NotificationCall) : Trigger (Except AlertFailure Bool) := do
  Prog.undo
  match call.givenKey with
  | none => return .error .refused
  | some key => do
    let rows ← withKey fault key
    return match rows with
      | none => .error .refused
      | some _ => .ok true

/-- After the commit the rows are refreshed. -/
def afterCommit (recipients : List Uuid) (faults : NotifyFaults) : Except AlertFailure Bool :=
  if recipients.any faults.refresh then .error .refused else .ok false

/-- `create_notification`: whether the session has been rolled back.  What goes to Telegram, after the
commit, is left out. -/
def createNotification (call : NotificationCall) (recipients : List Uuid) (faults : NotifyFaults) :
    Trigger (Except AlertFailure Bool) :=
  if recipients = [] then return .ok false
  else do
    let existing ← existingRows faults.check call
    match existing with
    | none => return .error .refused
    | some (_ :: _) => return .ok false
    | some [] => do
      let rows ← newRows call recipients
      let stored ← insertRows faults.insert rows
      if stored then
        Prog.publish []
        return afterCommit recipients faults
      else afterRefusal faults.again call

def deliver (event : AlertEvent) (recipients : List Recipient) (faults : NotifyFaults) :
    Trigger (Except AlertFailure Bool) :=
  if recipients = [] then return .ok false
  else createNotification event.call (recipients.map Recipient.id) faults

/-- An event that has not been found is recorded; with it, whether the session has been rolled back. -/
def recordEvent (alert : Alert) (template : AlertTemplate) (rule : AlertRule) (scopeIds : List Uuid) :
    Trigger (Except AlertFailure (Option AlertEvent × Bool)) := do
  let recipients ← resolveRecipients template scopeIds
  let id ← .fresh
  let event := newEvent alert template rule recipients id
  let admitted ← insertEvent event
  if admitted then
    let delivered ← deliver event recipients (alert.faults rule.id)
    return delivered.map fun expired => (some event, expired)
  else return .error .taken

/-- One round of the loop over the rules. -/
def alertRule (sha256 : String → String) (call : TriggerCall) (template : AlertTemplate)
    (context : List (String × Json)) (rule : AlertRule) :
    Trigger (Except AlertFailure (Option AlertEvent × Bool)) := do
  let scope ← ruleScope call rule
  match scope with
  | .error e => return .error e
  | .ok none => return .ok (none, false)
  | .ok (some scopeIds) => do
    let now ← .answer Env.now
    let alert := call.alert sha256 template context (now / 1000000 / 86400)
    let duplicates ← .select fun data => data.duplicates alert rule
    match duplicates with
    | _ :: _ :: _ => return .error .duplicates
    | [_] => return .ok (none, false)
    | [] => recordEvent alert template rule scopeIds

/-- The loop over the rules.  After a rollback they have expired, and an attribute of the next one cannot be
read. -/
def alertRules (sha256 : String → String) (call : TriggerCall) (template : AlertTemplate)
    (context : List (String × Json)) : List AlertRule → Bool → Trigger (Except AlertFailure (List AlertEvent))
  | [], _ => return .ok []
  | rule :: rules, expired =>
    if expired then return .error .missingGreenlet
    else do
      let result ← alertRule sha256 call template context rule
      match result with
      | .error e => return .error e
      | .ok (event, expired) => do
        let events ← alertRules sha256 call template context rules expired
        return events.map (event.toList ++ ·)

def triggerAlert (sha256 : String → String) (call : TriggerCall) :
    Trigger (Except AlertFailure (List AlertEvent)) := do
  let template ← .select fun data => data.templateOf call.templateCode
  match template with
  | none => return .ok []
  | some template => do
    let defaults ← .answer Env.defaults
    let rules ← .select fun data => data.rulesOf call.templateCode
    if rules = [] then return .ok []
    else do
      let result ← alertRules sha256 call template (setDefaults call.context defaults) rules false
      match result with
      | .error e => return .error e
      | .ok events => do
        Prog.publish []
        return .ok events

/-- What a call has come to. -/
abbrev TriggerAnswer : Type := Except AlertFailure (List AlertEvent)

/-- The calls, with what they come to. -/
def triggerHandler (sha256 : String → String) (call : TriggerCall) :
    Prog Data EventKey DataWrite Env (Entry Empty TriggerAnswer) Unit :=
  (triggerAlert sha256 call).answering

/-- Calls at once. -/
def triggerStep (sha256 : String → String) :
    Engine Data EventKey DataWrite Env (Entry Empty TriggerAnswer) → Op TriggerCall Env →
      Option (Engine Data EventKey DataWrite Env (Entry Empty TriggerAnswer)) :=
  Engine.step (triggerHandler sha256)

/-! ## What is expected -/

/-- **At most one event** of a rule, for a machine or for none, with a template, on a day. -/
def OncePerDay (sha256 : String → String) (data : Data) : Prop :=
  ∀ ruleId machineId templateCode day, (data.events.filter fun event =>
    decide (event.ruleId = ruleId ∧ event.machineId = machineId ∧ event.templateCode = templateCode ∧
      event.fingerprint = fingerprint sha256 ruleId machineId templateCode day)).length ≤ 1

/-- **No call raises** because another one has recorded its event. -/
def NeverCollides (record : List (Entry Empty TriggerAnswer)) : Prop :=
  ∀ answer, Entry.answer answer ∈ record → answer ≠ .error .duplicates ∧ answer ≠ .error .taken

/-! ## The condition -/

/-- The events among the writes. -/
def eventsOf (ws : List DataWrite) : List AlertEvent :=
  ws.filterMap fun
    | .event event => some event
    | .notifications _ => none

/-- Nobody has recorded the events about no machine that are committed. -/
def FirstOfKind (s : Store Data EventKey (Entry Empty TriggerAnswer)) (ws : List DataWrite)
    (_ : List (Entry Empty TriggerAnswer)) : Prop :=
  ∀ event ∈ eventsOf ws, event.machineId = none → recorded s.data event.ruleId none event.fingerprint = []

instance (s : Store Data EventKey (Entry Empty TriggerAnswer)) (ws : List DataWrite)
    (note : List (Entry Empty TriggerAnswer)) : Decidable (FirstOfKind s ws note) := by
  unfold FirstOfKind
  infer_instance

/-- Nobody has recorded the event about a machine that is inserted. -/
def StillFree (s : Store Data EventKey (Entry Empty TriggerAnswer)) (row : Option EventKey)
    (_ : List DataWrite) : Prop :=
  ∀ key ∈ row, recorded s.data key.ruleId (some key.machineId) key.fingerprint = []

instance (s : Store Data EventKey (Entry Empty TriggerAnswer)) (row : Option EventKey)
    (ws : List DataWrite) : Decidable (StillFree s row ws) := by
  unfold StillFree
  infer_instance

/-- **Undisturbed calls**: between the query for an event and its insert, or its commit if it is about no
machine, nobody else records it. -/
def Undisturbed (g : Engine Data EventKey DataWrite Env (Entry Empty TriggerAnswer))
    (op : Op TriggerCall Env) : Prop :=
  CommitsOnly FirstOfKind g op ∧ WritesOnly StillFree g op

instance (g : Engine Data EventKey DataWrite Env (Entry Empty TriggerAnswer)) (op : Op TriggerCall Env) :
    Decidable (Undisturbed g op) := by
  unfold Undisturbed
  infer_instance

/-! ## What the calls agree on -/

/-- No two events share an entry, and no call has collided. -/
structure RecordedOnce (data : Data) (record : List (Entry Empty TriggerAnswer)) : Prop where
  rules : (data.rules.map AlertRule.id).Nodup
  once : ∀ ruleId machineId fingerprint, (recorded data ruleId machineId fingerprint).length ≤ 1
  calm : NeverCollides record

/-- A call that has inserted an event holds its entry. -/
def alertDiscipline : Discipline Data EventKey DataWrite (Entry Empty TriggerAnswer) :=
  holding (fun data key => recorded data key.ruleId (some key.machineId) key.fingerprint = []) RecordedOnce
    FirstOfKind StillFree

section Writes

variable {ws vs : List DataWrite} {data : Data} {event : AlertEvent} {ruleId : Uuid}
  {machineId : Option Uuid} {fingerprint : String}

theorem eventsOf_append : eventsOf (ws ++ vs) = eventsOf ws ++ eventsOf vs := List.filterMap_append

theorem applyAll_events : (applyAll ws data).events = data.events ++ eventsOf ws := by
  induction ws generalizing data with
  | nil => exact (List.append_nil _).symm
  | cons w ws ih =>
    rw [applyAll_cons, ih]
    cases w with
    | event event =>
      show data.events ++ [event] ++ eventsOf ws = data.events ++ event :: eventsOf ws
      simp
    | notifications rows => rfl

theorem applyAll_rules : (applyAll ws data).rules = data.rules := by
  refine applyAll_invariant (P := fun d : Data => d.rules = data.rules) (fun w _ d hd => ?_) rfl
  cases w with
  | event event => exact hd
  | notifications rows => exact hd

theorem recorded_applyAll : recorded (applyAll ws data) ruleId machineId fingerprint =
    recorded data ruleId machineId fingerprint ++
      (eventsOf ws).filter (isOf ruleId machineId fingerprint) := by
  rw [recorded, applyAll_events, List.filter_append]
  rfl

theorem recorded_applyAll_of_later (h : ∀ event ∈ eventsOf ws, event.ruleId ≠ ruleId) :
    recorded (applyAll ws data) ruleId machineId fingerprint = recorded data ruleId machineId fingerprint := by
  have hnone : (eventsOf ws).filter (isOf ruleId machineId fingerprint) = [] := by
    refine List.filter_eq_nil_iff.mpr fun event hevent hboth => ?_
    exact h event hevent (of_decide_eq_true hboth).1
  rw [recorded_applyAll, hnone, List.append_nil]

theorem length_filter_isOf_le_one {events : List AlertEvent} (h : (events.map AlertEvent.ruleId).Nodup) :
    (events.filter (isOf ruleId machineId fingerprint)).length ≤ 1 := by
  induction events with
  | nil => simp
  | cons event events ih =>
    rw [List.map_cons, List.nodup_cons] at h
    rw [List.filter_cons]
    split
    · rename_i hevent
      have hnone : events.filter (isOf ruleId machineId fingerprint) = [] := by
        refine List.filter_eq_nil_iff.mpr fun other hother hboth => h.1 ?_
        have hsame : other.ruleId = event.ruleId :=
          (of_decide_eq_true hboth).1.trans (of_decide_eq_true hevent).1.symm
        exact hsame ▸ List.mem_map_of_mem hother
      simp [hnone]
    · exact ih h.2

end Writes

section Calls

variable {p : TxId} {ws : List DataWrite} {s t : Store Data EventKey (Entry Empty TriggerAnswer)}
  {rules : List AlertRule} {note : List (Entry Empty TriggerAnswer)}

/-- An entry of an event about a machine among the writes. -/
def Names (ws : List DataWrite) (key : EventKey) : Prop :=
  ∃ event ∈ eventsOf ws, event.ruleId = key.ruleId ∧ event.machineId = some key.machineId ∧
    event.fingerprint = key.fingerprint

/-- What a call has written: events of rules that are behind it, each of which it holds. -/
structure Behind (p : TxId) (rules : List AlertRule) (ws : List DataWrite)
    (s : Store Data EventKey (Entry Empty TriggerAnswer)) : Prop where
  apart : ((eventsOf ws).map AlertEvent.ruleId).Nodup
  later : ∀ event ∈ eventsOf ws, ∀ rule ∈ rules, event.ruleId ≠ rule.id
  held : ∀ key, Names ws key →
    s.locks key = some p ∧ recorded s.data key.ruleId (some key.machineId) key.fingerprint = []

theorem behind_nil : Behind p rules [] s where
  apart := List.nodup_nil
  later _ h := absurd h List.not_mem_nil
  held := by
    rintro key ⟨event, h, -⟩
    exact absurd h List.not_mem_nil

theorem stable_behind : Stable alertDiscipline p (Behind p rules) := by
  have hheld : Stable alertDiscipline p fun ws s => ∀ key, Names ws key →
      s.locks key = some p ∧ recorded s.data key.ruleId (some key.machineId) key.fingerprint = [] :=
    stable_holds Names
  exact ⟨fun ws s t hst h => ⟨h.apart, h.later, hheld.rely ws s t hst h.held⟩,
    fun ws s h => ⟨h.apart, h.later, hheld.draw ws s h.held⟩,
    fun ws s row h => ⟨h.apart, h.later, hheld.lock ws s row h.held⟩⟩

/-- **A commit** of events that the call holds, or that nobody has recorded. -/
theorem publish_behind (h : Behind p rules ws s) (hinv : alertDiscipline.Inv s)
    (hfirst : FirstOfKind s ws note)
    (hnote : ∀ answer, Entry.answer answer ∈ note → answer ≠ .error .duplicates ∧ answer ≠ .error .taken) :
    alertDiscipline.Inv (s.publish p ws note) ∧ alertDiscipline.Guar p s (s.publish p ws note) := by
  have hold : RecordedOnce s.data s.events := hinv
  refine ⟨⟨?_, fun ruleId machineId fingerprint => ?_, fun answer hmem => ?_⟩, guar_publish ?_⟩
  · show ((applyAll ws s.data).rules.map AlertRule.id).Nodup
    rw [applyAll_rules]
    exact hold.rules
  · show (recorded (applyAll ws s.data) ruleId machineId fingerprint).length ≤ 1
    rw [recorded_applyAll]
    by_cases hnew : ∃ event ∈ eventsOf ws, isOf ruleId machineId fingerprint event = true
    · -- a new event is the only one: its rule has no other, and nobody has recorded it before
      obtain ⟨event, hevent, his⟩ := hnew
      obtain ⟨rfl, rfl, rfl⟩ := of_decide_eq_true his
      have hfree : recorded s.data event.ruleId event.machineId event.fingerprint = [] := by
        cases hmachine : event.machineId with
        | none => exact hfirst event hevent hmachine
        | some id =>
          exact (h.held ⟨event.ruleId, id, event.fingerprint⟩ ⟨event, hevent, rfl, hmachine, rfl⟩).2
      rw [hfree, List.nil_append]
      exact length_filter_isOf_le_one h.apart
    · have hnone : (eventsOf ws).filter (isOf ruleId machineId fingerprint) = [] :=
        List.filter_eq_nil_iff.mpr fun event hevent his => hnew ⟨event, hevent, his⟩
      rw [hnone, List.append_nil]
      exact hold.once ruleId machineId fingerprint
  · exact (List.mem_append.mp hmem).elim (hnote answer) (hold.calm answer)
  · intro key hkey hnone
    show recorded (applyAll ws s.data) key.ruleId (some key.machineId) key.fingerprint = []
    rw [recorded_applyAll, hnone, List.nil_append]
    refine List.filter_eq_nil_iff.mpr fun event hevent hboth => ?_
    have hlocked := (h.held key ⟨event, hevent, of_decide_eq_true hboth⟩).1
    exact hkey hlocked

/-! ## The parts of a call -/

theorem quiet_bind {α β : Type} {C : β → Prop} {m : Trigger β}
    {f : β → Prog Data EventKey DataWrite Env (Entry Empty TriggerAnswer) α}
    {Q : α → List DataWrite → Store Data EventKey (Entry Empty TriggerAnswer) → Prop}
    (hm : m.Only (fun _ => False) (fun _ => False) C) (h : Behind p rules ws s)
    (hf : ∀ b vs t, C b → Behind p rules vs t → (f b).Safe alertDiscipline p Q vs t) :
    (m.mapNote Entry.note >>= f).Safe alertDiscipline p Q ws s :=
  stable_behind.bind (fun _ _ _ hw => hw.elim) (hm.mapNote_silent Entry.note) h hf

theorem only_scopeOrgsOf (depth : ℕ) (orgId : Option Uuid) (scopeMode : ScopeMode) :
    (scopeOrgsOf depth orgId scopeMode).Only (fun _ => False) (fun _ => False) fun _ => True := by
  unfold scopeOrgsOf
  split_ifs with hshort
  · exact trivial
  · exact only_select _ fun _ => trivial

theorem only_ruleScope (call : TriggerCall) (rule : AlertRule) :
    (ruleScope call rule).Only (fun _ => False) (fun _ => False)
      fun scope => ∀ e, scope = .error e → e = .recursion := by
  unfold ruleScope
  split_ifs with hsystem
  · cases rule.orgId with
    | none => exact fun e h => by cases h
    | some orgId =>
      refine (only_scopeOrgsOf _ _ _).bind fun ids _ => ?_
      cases ids with
      | none => exact fun e h => (Except.error.inj h).symm
      | some ids => exact fun e h => by cases h
  · refine (only_scopeOrgsOf _ _ _).bind fun ids _ => ?_
    cases ids with
    | none => exact fun e h => (Except.error.inj h).symm
    | some ids => exact fun e h => by cases h

theorem only_acceptAdmins (template : AlertTemplate) (users : List Recipient) :
    (acceptAdmins template users).Only (fun _ => False) (fun _ => False) fun _ => True := by
  induction users with
  | nil => exact trivial
  | cons user users ih => exact only_select _ fun _ => ih.bind fun _ _ => trivial

theorem only_resolveRecipients (template : AlertTemplate) (scopeIds : List Uuid) :
    (resolveRecipients template scopeIds).Only (fun _ => False) (fun _ => False) fun _ => True := by
  unfold resolveRecipients
  split_ifs with hnone
  · exact trivial
  · exact only_select _ fun _ => only_select _ fun _ =>
      (only_acceptAdmins template _).bind fun _ _ => trivial

theorem only_withKey (fault : Bool) (key : String) :
    (withKey fault key).Only (fun _ => False) (fun _ => False) fun _ => True := by
  unfold withKey
  split_ifs with hfault
  · exact trivial
  · exact only_select _ fun _ => trivial

theorem only_existingRows (fault : Bool) (call : NotificationCall) :
    (existingRows fault call).Only (fun _ => False) (fun _ => False) fun _ => True := by
  unfold existingRows
  cases call.givenKey with
  | none => exact trivial
  | some key => exact only_withKey fault key

theorem only_newRows (call : NotificationCall) (recipients : List Uuid) :
    (newRows call recipients).Only (fun _ => False) (fun _ => False) fun _ => True := by
  induction recipients with
  | nil => exact trivial
  | cons recipient recipients ih => exact only_fresh fun _ => ih.bind fun _ _ => trivial

/-- A part ends without a collision, and the call holds what it has written. -/
structure EndsWell (p : TxId) (rules : List AlertRule) {α : Type} (result : Except AlertFailure α)
    (ws : List DataWrite) (t : Store Data EventKey (Entry Empty TriggerAnswer)) : Prop where
  calm : ∀ e, result = .error e → e ≠ .duplicates ∧ e ≠ .taken
  behind : Behind p rules ws t

theorem endsWell_ok {α : Type} (a : α) (h : Behind p rules ws t) :
    EndsWell p rules (.ok a : Except AlertFailure α) ws t := ⟨nofun, h⟩

theorem endsWell_error {α : Type} {e : AlertFailure} (he : e ≠ .duplicates ∧ e ≠ .taken)
    (h : Behind p rules ws t) : EndsWell p rules (.error e : Except AlertFailure α) ws t :=
  ⟨fun e' h' => by rwa [← Except.error.inj h'], h⟩

/-- **The insert**: the entry is free, the call takes it, and the key admits the event. -/
theorem safe_insertEvent {event : AlertEvent} {rule : AlertRule} (hevent : event.ruleId = rule.id)
    (hnodup : ((rule :: rules).map AlertRule.id).Nodup) (h : Behind p (rule :: rules) ws s) :
    ((insertEvent event).mapNote Entry.note).Safe alertDiscipline p
      (fun admitted vs t => admitted = true ∧ Behind p rules vs t) ws s := by
  have hapart : ((eventsOf (ws ++ [.event event])).map AlertEvent.ruleId).Nodup := by
    have hnew : rule.id ∉ (eventsOf ws).map AlertEvent.ruleId := by
      intro hmem
      obtain ⟨other, hother, hsame⟩ := List.mem_map.mp hmem
      exact h.later other hother rule List.mem_cons_self hsame
    rw [eventsOf_append, List.map_append]
    refine List.nodup_append.mpr ⟨h.apart, by simp [eventsOf], ?_⟩
    intro ruleId hold ruleId' hmem heq
    have hsame : ruleId' = event.ruleId := List.mem_singleton.mp hmem
    exact hnew (by rw [← hevent, ← hsame, ← heq]; exact hold)
  have hlater : ∀ other ∈ eventsOf (ws ++ [.event event]), ∀ rule ∈ rules, other.ruleId ≠ rule.id := by
    intro other hother next hnext
    rw [eventsOf_append] at hother
    rcases List.mem_append.mp hother with hold | hnew
    · exact h.later other hold next (List.mem_cons_of_mem rule hnext)
    · obtain rfl : other = event := List.mem_singleton.mp hnew
      rw [List.map_cons, List.nodup_cons] at hnodup
      rw [hevent]
      exact fun hsame => hnodup.1 (hsame ▸ List.mem_map_of_mem hnext)
  -- what is named afterwards was named before, or is the entry of the new event
  have hnames : ∀ key, Names (ws ++ [.event event]) key → Names ws key ∨
      (event.ruleId = key.ruleId ∧ event.machineId = some key.machineId ∧
        event.fingerprint = key.fingerprint) := by
    rintro key ⟨other, hother, hkey⟩
    rw [eventsOf_append] at hother
    rcases List.mem_append.mp hother with hold | hnew
    · exact .inl ⟨other, hold, hkey⟩
    · obtain rfl : other = event := List.mem_singleton.mp hnew
      exact .inr hkey
  unfold insertEvent
  cases hmachine : event.machineId with
  | none =>
    refine fun t hst _ _ => ⟨rfl, hapart, hlater, fun key hkey => ?_⟩
    have ht : Behind p (rule :: rules) ws t := stable_behind.rely _ _ _ hst h
    rcases hnames key hkey with hold | ⟨-, hnew, -⟩
    · exact ht.held key hold
    · rw [hmachine] at hnew
      cases hnew
  | some machineId =>
    intro t hst _ hrow
    have ht : Behind p (rule :: rules) ws t := stable_behind.rely _ _ _ hst h
    have hopen : recorded t.data event.ruleId (some machineId) event.fingerprint = [] :=
      hrow.2 ⟨event.ruleId, machineId, event.fingerprint⟩ rfl
    have hfree : recorded (t.view ws) event.ruleId (some machineId) event.fingerprint = [] := by
      have hothers : ∀ other ∈ eventsOf ws, other.ruleId ≠ event.ruleId := by
        intro other hother
        rw [hevent]
        exact ht.later other hother rule List.mem_cons_self
      exact (recorded_applyAll_of_later hothers).trans hopen
    show _ = true ∧ Behind p rules (ws ++ ite _ _ _) _
    rw [if_pos hfree]
    refine ⟨decide_eq_true hfree, hapart, hlater, fun key hkey => ?_⟩
    rw [Store.data_lock]
    rcases hnames key hkey with hold | ⟨hrule, hnew, hprint⟩
    · exact ⟨locks_lock_self _ (ht.held key hold).1, (ht.held key hold).2⟩
    · rw [hmachine] at hnew
      obtain rfl : machineId = key.machineId := Option.some.inj hnew
      rw [hrule, hprint] at hopen ⊢
      exact ⟨Function.update_self _ _ _, hopen⟩

/-- **A notification**: it commits what is behind the call, or rolls it back. -/
theorem safe_createNotification (call : NotificationCall) (recipients : List Uuid) (faults : NotifyFaults)
    (h : Behind p rules ws s) :
    ((createNotification call recipients faults).mapNote Entry.note).Safe alertDiscipline p
      (EndsWell p rules) ws s := by
  have hrefused : AlertFailure.refused ≠ .duplicates ∧ AlertFailure.refused ≠ .taken := by decide
  unfold createNotification
  by_cases hnobody : recipients = []
  · rw [if_pos hnobody]
    exact endsWell_ok _ h
  rw [if_neg hnobody, Prog.mapNote_bind]
  refine quiet_bind (only_existingRows faults.check call) h fun existing vs t _ ht => ?_
  match existing with
  | none => exact endsWell_error hrefused ht
  | some (_ :: _) => exact endsWell_ok _ ht
  | some [] =>
    rw [Prog.mapNote_bind]
    refine quiet_bind (only_newRows call recipients) ht fun rows vs t _ ht => ?_
    -- the rows of notifications are no events
    have hkept : ∀ {u vs}, Behind p rules vs u →
        Behind p rules (vs ++ if admitsRows faults.insert rows (u.view vs) then [.notifications rows] else [])
          u := by
      intro u vs hu
      have hsame : eventsOf (vs ++ if admitsRows faults.insert rows (u.view vs) then
          [.notifications rows] else []) = eventsOf vs := by
        rw [eventsOf_append]
        split_ifs with hstored
        · exact List.append_nil _
        · exact List.append_nil _
      refine ⟨hsame ▸ hu.apart, hsame ▸ hu.later, fun key ⟨event, hevent, hkey⟩ => ?_⟩
      exact hu.held key ⟨event, hsame ▸ hevent, hkey⟩
    intro u htu _ _
    have hu : Behind p rules vs u := stable_behind.rely _ _ _ htu ht
    by_cases hadmits : admitsRows faults.insert rows (u.view vs) = true
    · have hrows := hkept hu
      change (Prog.mapNote Entry.note (ite (admitsRows faults.insert rows (u.view vs) = true) _ _)).Safe
        alertDiscipline p _ _ _
      rw [if_pos hadmits]
      intro v huv hinv hfirst
      obtain ⟨hinv', hguar⟩ := publish_behind (stable_behind.rely _ _ _ huv hrows) hinv hfirst
        fun _ hmem => absurd hmem List.not_mem_nil
      refine ⟨hinv', hguar, ?_⟩
      show EndsWell p rules (afterCommit recipients faults) [] _
      unfold afterCommit
      split_ifs with hrefresh
      · exact endsWell_error hrefused behind_nil
      · exact endsWell_ok _ behind_nil
    · change (Prog.mapNote Entry.note (ite (admitsRows faults.insert rows (u.view vs) = true) _ _)).Safe
        alertDiscipline p _ _ _
      rw [if_neg hadmits]
      unfold afterRefusal
      intro v _ _
      cases call.givenKey with
      | none => exact endsWell_error hrefused behind_nil
      | some key =>
        show ((withKey faults.again key >>= _).mapNote Entry.note).Safe alertDiscipline p _ [] _
        rw [Prog.mapNote_bind]
        refine quiet_bind (only_withKey faults.again key) (behind_nil : Behind p rules [] (v.release p)) fun again vs t _ ht => ?_
        cases again with
        | none => exact endsWell_error hrefused ht
        | some rows => exact endsWell_ok _ ht

theorem safe_deliver (event : AlertEvent) (recipients : List Recipient) (faults : NotifyFaults)
    (h : Behind p rules ws s) :
    ((deliver event recipients faults).mapNote Entry.note).Safe alertDiscipline p (EndsWell p rules) ws s := by
  unfold deliver
  split_ifs with hnobody
  · exact endsWell_ok _ h
  · exact safe_createNotification _ _ _ h

theorem safe_recordEvent (alert : Alert) (template : AlertTemplate) (rule : AlertRule)
    (scopeIds : List Uuid) (hnodup : ((rule :: rules).map AlertRule.id).Nodup)
    (h : Behind p (rule :: rules) ws s) :
    ((recordEvent alert template rule scopeIds).mapNote Entry.note).Safe alertDiscipline p
      (EndsWell p rules) ws s := by
  unfold recordEvent
  rw [Prog.mapNote_bind]
  refine quiet_bind (only_resolveRecipients template scopeIds) h fun recipients vs t _ ht u htu _ => ?_
  have hu : Behind p (rule :: rules) vs (u.draw p) :=
    stable_behind.draw _ _ (stable_behind.rely _ _ _ htu ht)
  change ((insertEvent (newEvent alert template rule recipients u.drawn.length) >>= _).mapNote
    Entry.note).Safe alertDiscipline p _ _ _
  rw [Prog.mapNote_bind]
  refine (safe_insertEvent rfl hnodup hu).bind fun admitted vs t hadmitted => ?_
  obtain ⟨rfl, ht⟩ := hadmitted
  change ((deliver _ recipients (alert.faults rule.id) >>= _).mapNote Entry.note).Safe alertDiscipline p
    _ _ _
  rw [Prog.mapNote_bind]
  refine (safe_deliver _ recipients (alert.faults rule.id) ht).bind fun delivered vs t hdelivered => ?_
  cases delivered with
  | error e => exact endsWell_error (hdelivered.calm e rfl) hdelivered.behind
  | ok expired => exact endsWell_ok _ hdelivered.behind

theorem Behind.tail {rule : AlertRule} (h : Behind p (rule :: rules) ws s) : Behind p rules ws s :=
  ⟨h.apart, fun event hevent next hnext => h.later event hevent next (List.mem_cons_of_mem rule hnext),
    h.held⟩

theorem safe_alertRule (sha256 : String → String) (call : TriggerCall) (template : AlertTemplate)
    (context : List (String × Json)) (rule : AlertRule)
    (hnodup : ((rule :: rules).map AlertRule.id).Nodup) (h : Behind p (rule :: rules) ws s) :
    ((alertRule sha256 call template context rule).mapNote Entry.note).Safe alertDiscipline p
      (EndsWell p rules) ws s := by
  unfold alertRule
  rw [Prog.mapNote_bind]
  refine quiet_bind (only_ruleScope call rule) h fun scope vs t hscope ht => ?_
  match scope with
  | .error e =>
    refine endsWell_error ?_ ht.tail
    rw [hscope e rfl]
    decide
  | .ok none => exact endsWell_ok _ ht.tail
  | .ok (some scopeIds) =>
    intro u e htu _ v huv hinv
    have hv : Behind p (rule :: rules) vs v :=
      stable_behind.rely _ _ _ huv (stable_behind.rely _ _ _ htu ht)
    -- the call itself has recorded nothing for this rule
    have hfound : ∀ alert : Alert, ((v.view vs).duplicates alert rule).length ≤ 1 := by
      intro alert
      have hothers : ∀ event ∈ eventsOf vs, event.ruleId ≠ rule.id := fun event hevent =>
        hv.later event hevent rule List.mem_cons_self
      have honce : RecordedOnce v.data v.events := hinv
      show (recorded (applyAll vs v.data) rule.id alert.machineId (alert.fingerprint rule.id)).length ≤ 1
      rw [recorded_applyAll_of_later hothers]
      exact honce.once _ _ _
    dsimp only
    generalize call.alert sha256 template context (e.now / 1000000 / 86400) = alert
    have hlength := hfound alert
    match hduplicates : (v.view vs).duplicates alert rule with
    | _ :: _ :: _ =>
      rw [hduplicates] at hlength
      simp at hlength
    | [_] => exact endsWell_ok _ hv.tail
    | [] => exact safe_recordEvent alert template rule scopeIds hnodup hv

theorem safe_alertRules (sha256 : String → String) (call : TriggerCall) (template : AlertTemplate)
    (context : List (String × Json)) (expired : Bool) (hnodup : (rules.map AlertRule.id).Nodup)
    (h : Behind p rules ws s) :
    ((alertRules sha256 call template context rules expired).mapNote Entry.note).Safe alertDiscipline p
      (EndsWell p []) ws s := by
  induction rules generalizing expired ws s with
  | nil => exact endsWell_ok _ h
  | cons rule rules ih =>
    unfold alertRules
    split_ifs with hexpired
    · exact endsWell_error (by decide) ⟨h.apart, fun _ _ _ hmem => absurd hmem List.not_mem_nil, h.held⟩
    rw [Prog.mapNote_bind]
    refine (safe_alertRule sha256 call template context rule hnodup h).bind fun result vs t hresult => ?_
    match result with
    | .error e =>
      refine endsWell_error (hresult.calm e rfl) ⟨hresult.behind.apart, ?_, hresult.behind.held⟩
      exact fun _ _ _ hmem => absurd hmem List.not_mem_nil
    | .ok (event, expired) =>
      rw [List.map_cons, List.nodup_cons] at hnodup
      change ((alertRules sha256 call template context rules expired >>= _).mapNote Entry.note).Safe
        alertDiscipline p _ _ _
      rw [Prog.mapNote_bind]
      refine (ih expired hnodup.2 hresult.behind).bind fun events vs t hevents => ?_
      cases events with
      | error e => exact endsWell_error (hevents.calm e rfl) hevents.behind
      | ok events => exact endsWell_ok _ hevents.behind

/-- **A call** keeps to what the calls agree on. -/
theorem safe_triggerAlert (sha256 : String → String) (call : TriggerCall) :
    ((triggerAlert sha256 call).mapNote Entry.note).Safe alertDiscipline p (EndsWell p []) [] s := by
  unfold triggerAlert
  intro t _ _
  change ((match t.data.templateOf call.templateCode with
    | none => _
    | some template => _ : Trigger _).mapNote Entry.note).Safe alertDiscipline p _ [] t
  cases t.data.templateOf call.templateCode with
  | none => exact endsWell_ok _ behind_nil
  | some template =>
    intro u e _ _ v _ hinv
    have honce : RecordedOnce v.data v.events := hinv
    have hnodup : ((v.data.rulesOf call.templateCode).map AlertRule.id).Nodup :=
      honce.rules.sublist (List.filter_sublist.map _)
    change ((ite (v.data.rulesOf call.templateCode = []) _ _ : Trigger _).mapNote Entry.note).Safe
      alertDiscipline p _ [] v
    by_cases hrules : v.data.rulesOf call.templateCode = []
    · rw [if_pos hrules]
      exact endsWell_ok _ behind_nil
    · rw [if_neg hrules, Prog.mapNote_bind]
      refine (safe_alertRules sha256 call template _ false hnodup behind_nil).bind
        fun result vs w hresult => ?_
      match result with
      | .error e => exact endsWell_error (hresult.calm e rfl) hresult.behind
      | .ok events =>
        intro x hwx hx hfirst
        obtain ⟨hinv', hguar⟩ := publish_behind (stable_behind.rely _ _ _ hwx hresult.behind) hx hfirst
          fun _ hmem => absurd hmem List.not_mem_nil
        exact ⟨hinv', hguar, endsWell_ok _ behind_nil⟩

theorem safe_triggerHandler (sha256 : String → String) (call : TriggerCall) :
    (triggerHandler sha256 call).Safe alertDiscipline p anyEnd [] s := by
  refine safe_answering (safe_triggerAlert sha256 call) ?_
  intro answer ws t u hanswer _ _ v _ hinv _
  refine publish_behind (@behind_nil p _ []) hinv (fun _ h => absurd h List.not_mem_nil) ?_
  intro other hother
  obtain rfl := Entry.answer.inj (List.mem_singleton.mp hother)
  cases other with
  | ok events => exact ⟨nofun, nofun⟩
  | error e =>
    obtain ⟨hduplicates, htaken⟩ := hanswer.calm e rfl
    exact ⟨fun h => hduplicates (Except.error.inj h), fun h => htaken (Except.error.inj h)⟩

end Calls

/-! ## Runs -/

/-- **Alerts are raised once a day, and no call collides**, in every run of undisturbed calls. -/
theorem oncePerDay_of_runs (sha256 : String → String) {s : Store Data EventKey (Entry Empty TriggerAnswer)}
    (hs : RecordedOnce s.data s.events)
    {g : Engine Data EventKey DataWrite Env (Entry Empty TriggerAnswer)}
    (hrun : Runs (triggerStep sha256) Undisturbed (Engine.start s) g) :
    OncePerDay sha256 g.store.data ∧ NeverCollides g.store.events := by
  have hstart : AllSafe alertDiscipline
      (Engine.start s : Engine Data EventKey DataWrite Env (Entry Empty TriggerAnswer)) := allSafe_start hs
  have hend : RecordedOnce g.store.data g.store.events :=
    invariant_of_runs (R := alertDiscipline) (fun _ call _ _ => safe_triggerHandler sha256 call) hstart hrun
  refine ⟨fun ruleId machineId templateCode day => ?_, hend.calm⟩
  refine le_trans (List.Sublist.length_le ?_) (hend.once ruleId machineId
    (fingerprint sha256 ruleId machineId templateCode day))
  refine List.monotone_filter_right _ fun event hevent => ?_
  obtain ⟨hrule, hmachine, -, hprint⟩ := of_decide_eq_true hevent
  exact decide_eq_true ⟨hrule, hmachine, hprint⟩

/-! ### Calls that overlap -/

/-- A digest that loses nothing. -/
def exampleSha (text : String) : String := "sha256:" ++ text

/-- A rule for all organisations, and nobody to notify. -/
def exampleAlerts : Data :=
  { twoAdmins with
    users := []
    templates := [⟨"machine_offline", true, "warning", []⟩]
    rules := [⟨1, "machine_offline", none, .system, true⟩] }

/-- Nothing has been raised. -/
def exampleStore : Store Data EventKey (Entry Empty TriggerAnswer) := ⟨exampleAlerts, fun _ => none, [], []⟩

def exampleCall (machineId : Option Uuid) : TriggerCall where
  templateCode := "machine_offline"
  orgId := some 1
  machineId := machineId
  context := []
  render _ _ := ("PC-01", none)
  depth := 10
  faults _ := calmServer

/-- What the calls are told. -/
def exampleEnv : Env := ⟨0, []⟩

/-- Two calls: the first one records its event after `early` statements of the second one. -/
def twoCalls (machineId machineId' : Option Uuid) (early late : ℕ) : List (Op TriggerCall Env) :=
  [.begin 0 (exampleCall machineId), .begin 1 (exampleCall machineId')] ++
    List.replicate early (.run 1 exampleEnv) ++ List.replicate 14 (.run 0 exampleEnv) ++
    List.replicate late (.run 1 exampleEnv)

theorem oncePerDay_of_two_calls : ∃ g, Runs (triggerStep exampleSha) Undisturbed (Engine.start exampleStore) g ∧
    g.store.data.events.map AlertEvent.machineId = [some 7] ∧ OncePerDay exampleSha g.store.data ∧
    NeverCollides g.store.events := by
  have hstart : RecordedOnce exampleStore.data exampleStore.events :=
    ⟨by decide, fun _ _ _ => Nat.zero_le 1, fun _ h => absurd h List.not_mem_nil⟩
  obtain ⟨g, hrun, hevents⟩ := exists_runs_of_exec (G := Undisturbed) (triggerStep exampleSha)
    (Engine.start exampleStore) (twoCalls (some 7) (some 7) 5 5)
    (p := fun g => decide (g.store.data.events.map AlertEvent.machineId = [some 7])) (by decide +kernel)
  exact ⟨g, hrun, of_decide_eq_true hevents, oncePerDay_of_runs exampleSha hstart hrun⟩

/-- **Calls that overlap.**  Two calls for no machine record the event twice, and of two calls for one
machine the second one raises. -/
theorem overlapping_calls :
    (∃ g, Runs (triggerStep exampleSha) anyAction (Engine.start exampleStore) g ∧
      ¬ OncePerDay exampleSha g.store.data) ∧
    ∃ g, Runs (triggerStep exampleSha) anyAction (Engine.start exampleStore) g ∧
      ¬ NeverCollides g.store.events := by
  constructor
  · obtain ⟨g, hrun, htwice⟩ := exists_runs_of_exec (G := anyAction) (triggerStep exampleSha)
      (Engine.start exampleStore) (twoCalls none none 6 8)
      (p := fun g => decide ((g.store.data.events.filter fun event => decide (event.ruleId = 1 ∧
        event.machineId = none ∧ event.templateCode = "machine_offline" ∧
        event.fingerprint = fingerprint exampleSha 1 none "machine_offline" 0)).length = 2)) (by decide +kernel)
    refine ⟨g, hrun, fun honce => ?_⟩
    have hle := honce 1 none "machine_offline" 0
    rw [of_decide_eq_true htwice] at hle
    omega
  · obtain ⟨g, hrun, htaken⟩ := exists_runs_of_exec (G := anyAction) (triggerStep exampleSha)
      (Engine.start exampleStore) (twoCalls (some 7) (some 7) 6 7)
      (p := fun g => decide (Entry.answer (.error .taken) ∈ g.store.events)) (by decide +kernel)
    exact ⟨g, hrun, fun hcalm => (hcalm _ (of_decide_eq_true htaken)).2 rfl⟩

end AssetInventory.Monitor.Triggers

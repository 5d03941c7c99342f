import AssetInventory.Lib.Share
import AssetInventory.Dfir.Tokens
import AssetInventory.Monitor.Triggers

/-!
# The announcement of results

An investigation that ends is to be announced as an alert, to every rule whose scope contains the
organisation of its machine.  Some of the ways in which an investigation ends lead to a call of
`trigger_alert`, after the commit, in the same process; the others do not.  The alerts drop an event that
has been recorded on the same day for the same rule, machine and template.

* `noticeOf`: which moves of a process lead to a call.
* `Desk`, `deskStep`: the investigations and the alerts as one system, with the calls statement by
  statement.
* `EachAnnounced`: every end is announced, or its announcement is still ahead.
* `Announces`: the end is one that leads to a call, no earlier event has its key, and nothing goes wrong.
* `eachAnnounced_of_runs`: this suffices.
* `results_swallowed`: a second result of the day, and an end that nobody hears of.
-/

namespace AssetInventory.Monitor.Triggers

open PyJson PyTime Server ReadCommitted Interleaving

/-! ## Who calls -/

/-- The arguments of `_notify_investigation_result`. -/
structure ResultNotice where
  investigationId : InvId
  machineId : String
  status : Status
  severity : Option String
  findingsCount : Option ℤ
  llmModel : Option String
  error : Option String
  deriving DecidableEq

/-- The call of `_state_analyze`, if it comes to that. -/
def noticeOfAnalyze (i : InvId) (env : AnalyzeEnv) (inv : DfirInvestigation) : Option ResultNotice :=
  if inv.externalOrchestrator.isSome then none
  else
    match env.config, bundle (inv.rawArtifacts.getD []), env.llm with
    | some config, .ok _, .ok resp =>
      some ⟨i, inv.machineId, .completed, some resp.severity, some resp.findingsCount, some config.model, none⟩
    | some _, .ok _, .llmError message => some ⟨i, inv.machineId, .failed, none, none, none, some message⟩
    | _, _, _ => none

/-- The call of `_process_one`, if it comes to that. -/
def noticeOfProcess (i : InvId) (env : LocalEnv) (inv : DfirInvestigation) : Option ResultNotice :=
  if inv.externalOrchestrator ≠ some .deepagent ∧ inv.status = .analyzing then
    noticeOfAnalyze i env.analyze inv
  else none

/-- The call of `submit_external_result`, if it comes to that. -/
def noticeOfCallback (i : InvId) (call : ResultCallback) : CallbackEffect → Option ResultNotice
  | .replayed _ => none
  | .recorded row _ =>
    if truthy call.error then some ⟨i, row.machineId, .failed, none, none, none, call.error⟩
    else some ⟨i, row.machineId, .completed, row.severity, row.findingsCount, row.llmModel, none⟩

/-- The call that a move of a process leads to, once its changes have been committed. -/
def noticeOf (w : World) (p : Pid) : Move → Option ResultNotice
  | .process env =>
    match (w.procs p).phase with
    | .working (i :: _) => ((w.procs p).objs i).bind (noticeOfProcess i env)
    | _ => none
  | .callback i call =>
    match submitExternalResult i w.clock call (w.rows.get i) with
    | .ok e => noticeOfCallback i call e
    | .error _ => none
  | _ => none

/-! ## The call -/

/-- What the model takes from elsewhere. -/
structure ResultSettings where
  cfg : AssetInventory.Settings
  sha256 : String → String
  /-- The id that a text names. -/
  uuid : String → Uuid
  /-- The column `hostname`. -/
  hostname : Uuid → Json
  /-- The texts of a template in a context. -/
  render : AlertTemplate → List (String × Json) → String × Option String
  /-- How deep the interpreter lets a recursion go. -/
  depth : ℕ

def templateCodeOf (status : Status) : String :=
  if status = .completed then "investigation_completed" else "investigation_failed"

def ResultNotice.context (n : ResultNotice) (hostname : Json) : List (String × Json) :=
  [("hostname", hostname), ("investigation_id", .str n.investigationId)] ++
    if n.status = .completed then
      [("findings_count", .num (n.findingsCount.getD 0)),
        ("severity", .str (if truthy n.severity then n.severity.getD "" else "info")),
        ("llm_model", .str (if truthy n.llmModel then n.llmModel.getD "" else "—"))]
    else [("error", .str (truncate 300 (n.error.getD "")))]

/-- `db.get(Machine, machine_id)`. -/
def machineOf (c : ResultSettings) (data : Data) (machineId : String) : Option MonitoredMachine :=
  data.machines.find? fun m => decide (m.id = c.uuid machineId)

/-- The organisation of a machine. -/
def orgOf (c : ResultSettings) (data : Data) (machineId : String) : Option Uuid :=
  (machineOf c data machineId).map MonitoredMachine.orgId

/-- The call of `trigger_alert`.  The server refuses nothing of it. -/
def ResultNotice.call (c : ResultSettings) (data : Data) (n : ResultNotice) : TriggerCall where
  templateCode := templateCodeOf n.status
  orgId := orgOf c data n.machineId
  machineId := some (c.uuid n.machineId)
  context := n.context (((machineOf c data n.machineId).map fun m => c.hostname m.id).getD .null)
  render := c.render
  depth := c.depth
  faults _ := calmServer

/-- A call as the service makes it: what it returns or raises is not looked at. -/
def resultHandler (sha256 : String → String) (call : TriggerCall) :
    Prog Data EventKey DataWrite Env Empty Unit := do
  let _ ← triggerAlert sha256 call
  return ()

/-! ## The system -/

/-- The investigations, the alerts, and the calls in between. -/
structure Desk where
  world : World
  alerts : Engine Data EventKey DataWrite Env Empty
  /-- The call that a process makes when it has committed. -/
  owed : Pid → Option ResultNotice
  /-- The call that a process is making, with the day on which it has begun. -/
  calling : Pid → Option (ResultNotice × ℤ)

/-- A step of the investigations, the beginning of a call, or a statement of it. -/
inductive DeskAction where
  | dfir (a : Action)
  | call (p : Pid)
  | statement (p : Pid) (e : Env)

/-- The day. -/
def today (w : World) : ℤ := w.clock / 1000000 / 86400

/-- The program is over. -/
def ended {D K W E V : Type} : Prog D K W E V Unit → Bool
  | .ret _ => true
  | _ => false

/-- A process goes on when it owes no call and makes none. -/
def Desk.isFree (d : Desk) (p : Pid) : Prop := d.owed p = none ∧ d.calling p = none

instance (d : Desk) (p : Pid) : Decidable (d.isFree p) := by
  unfold Desk.isFree
  infer_instance

/-- A step of the investigations. -/
def dfirStep (c : ResultSettings) (d : Desk) : Action → Option Desk
  | .move p m =>
    if d.isFree p then
      (step c.cfg d.world (.move p m)).map fun w =>
        { d with world := w, owed := Function.update d.owed p (noticeOf d.world p m) }
    else none
  | .commit p =>
    if d.calling p = none then (step c.cfg d.world (.commit p)).map fun w => { d with world := w } else none
  | .close p =>
    (step c.cfg d.world (.close p)).map fun w =>
      { world := w
        alerts := ⟨d.alerts.store.release p, Function.update d.alerts.txns p .idle⟩
        owed := Function.update d.owed p none
        calling := Function.update d.calling p none }
  | a => (step c.cfg d.world a).map fun w => { d with world := w }

/-- A process that has committed begins the call that it owes. -/
def beginCall (c : ResultSettings) (d : Desk) (p : Pid) : Option Desk :=
  match d.owed p with
  | none => none
  | some n =>
    if (d.world.procs p).todo = [] ∧ d.calling p = none then
      (d.alerts.step (resultHandler c.sha256) (.begin p (n.call c d.alerts.store.data))).map fun alerts =>
        { d with
          alerts := alerts
          owed := Function.update d.owed p none
          calling := Function.update d.calling p (some (n, today d.world)) }
    else none

/-- **The steps.**  A statement reads the clock of the system. -/
def deskStep (c : ResultSettings) (d : Desk) : DeskAction → Option Desk
  | .dfir a => dfirStep c d a
  | .call p => beginCall c d p
  | .statement p e =>
    if (d.calling p).isSome ∧ e.now = d.world.clock then
      (d.alerts.step (resultHandler c.sha256) (.run p e)).map fun alerts =>
        { d with
          alerts := alerts
          calling := if ended (alerts.txns p).prog then Function.update d.calling p none else d.calling }
    else none

/-- Nothing has begun. -/
def Desk.start (w : World) (data : Data) : Desk where
  world := w
  alerts := .start ⟨data, fun _ => none, [], []⟩
  owed _ := none
  calling _ := none

/-! ## What is expected -/

/-- The write ends an investigation. -/
def endsIt (wr : Write) : Prop := wr.cur.status.isTerminal = true ∧ wr.base.status ≠ wr.cur.status

instance (wr : Write) : Decidable (endsIt wr) := by
  unfold endsIt
  infer_instance

/-- The scope of a rule contains an organisation. -/
def covers (depth : ℕ) (data : Data) (rule : AlertRule) (orgId : Option Uuid) : Prop :=
  rule.scopeMode = .system ∨ ∃ ruleOrg ids, rule.orgId = some ruleOrg ∧
    scopeOrgs depth data.organizations (some ruleOrg) rule.scopeMode = some ids ∧ orgId ∈ ids.map some

def naming (i : InvId) (event : AlertEvent) : Prop := ("investigation_id", Json.str i) ∈ event.context

/-- Every enabled rule for the template whose scope contains the organisation of the machine has one of
these events, and it names the investigation. -/
def AnnouncedAs (c : ResultSettings) (data : Data) (events : List AlertEvent) (i : InvId)
    (machineId : String) (code : String) : Prop :=
  ∀ rule ∈ data.rulesOf code, covers c.depth data rule (orgOf c data machineId) →
    ∃ event ∈ events, event.ruleId = rule.id ∧ naming i event

/-- A process owes the call for an end, or is making it. -/
def Desk.Ahead (d : Desk) (wr : Write) : Prop :=
  ∃ p n, (d.owed p = some n ∨ ∃ day, d.calling p = some (n, day)) ∧ n.investigationId = wr.id ∧
    n.machineId = wr.cur.machineId ∧ n.status = wr.cur.status

/-- **Every end is announced**, or its announcement is still ahead. -/
def EachAnnounced (c : ResultSettings) (d : Desk) : Prop :=
  ∀ p writes tokens, Event.committed p writes tokens ∈ d.world.log → ∀ wr ∈ writes, endsIt wr →
    AnnouncedAs c d.alerts.store.data d.alerts.store.data.events wr.id wr.cur.machineId
      (templateCodeOf wr.cur.status) ∨ d.Ahead wr

/-! ## The condition -/

/-- An event that the call for a result may record, or may find, from a day on. -/
def Claims (c : ResultSettings) (n : ResultNotice) (day : ℤ) (event : AlertEvent) : Prop :=
  event.machineId = some (c.uuid n.machineId) ∧ ∃ later, day ≤ later ∧ event.fingerprint =
    fingerprint c.sha256 event.ruleId (some (c.uuid n.machineId)) (templateCodeOf n.status) later

/-- No event of the machine and the template has been recorded for this day, and nobody else is about to
record one. -/
structure Unprecedented (c : ResultSettings) (d : Desk) (n : ResultNotice) : Prop where
  recorded : ∀ event ∈ d.alerts.store.data.events, ¬ Claims c n (today d.world) event
  pending : ∀ q b day, d.calling q = some (b, day) → ∀ event,
    ¬ (Claims c n (today d.world) event ∧ Claims c b day event)

/-- The scopes of the rules are not too deep for the interpreter. -/
def ScopesFit (depth : ℕ) (data : Data) (code : String) : Prop :=
  ∀ rule ∈ data.rulesOf code, ∀ orgId, rule.orgId = some orgId →
    scopeOrgs depth data.organizations (some orgId) rule.scopeMode ≠ none

/-- **The condition**, step by step. -/
def Announces (c : ResultSettings) (d : Desk) : DeskAction → Prop
  -- an investigation ends on a way that leads to a call
  | .dfir (.commit p) => ∀ f ∈ (d.world.procs p).todo.head?, ∀ wr ∈ f.writes, endsIt wr → (d.owed p).isSome
  -- no process is broken off before its call is over
  | .dfir (.close p) => d.isFree p
  -- nobody has announced a result of the machine on this day
  | .call p => ∀ n ∈ d.owed p,
      Unprecedented c d n ∧ ScopesFit c.depth d.alerts.store.data (templateCodeOf n.status)
  -- the server takes what is written
  | .statement p e => WritesOnly (fun _ _ ws => ws ≠ []) d.alerts (.run p e : Op TriggerCall Env)
  | _ => True

/-! ## The share of a call -/

/-- The tables that nobody writes. -/
structure SameTables (data data' : Data) : Prop where
  templates : data'.templates = data.templates
  rules : data'.rules = data.rules
  organizations : data'.organizations = data.organizations
  machines : data'.machines = data.machines

variable {data data' : Data}

theorem SameTables.applyAll (h : SameTables data data') (ws : List DataWrite) :
    SameTables data (applyAll ws data') := by
  refine applyAll_invariant (P := SameTables data) (fun w _ d hd => ?_) h
  cases w with
  | event event => exact ⟨hd.templates, hd.rules, hd.organizations, hd.machines⟩
  | notifications rows => exact ⟨hd.templates, hd.rules, hd.organizations, hd.machines⟩

/-- The data have grown by such events. -/
def GrowsBy (P : AlertEvent → Prop) (data data' : Data) : Prop :=
  ∃ new, data'.events = data.events ++ new ∧ ∀ event ∈ new, P event

theorem GrowsBy.refl (P : AlertEvent → Prop) (data : Data) : GrowsBy P data data :=
  ⟨[], (List.append_nil _).symm, List.forall_mem_nil _⟩

theorem GrowsBy.trans {P : AlertEvent → Prop} {data'' : Data} (h : GrowsBy P data data')
    (h' : GrowsBy P data' data'') : GrowsBy P data data'' := by
  obtain ⟨new, hnew, hP⟩ := h
  obtain ⟨more, hmore, hP'⟩ := h'
  refine ⟨new ++ more, ?_, List.forall_mem_append.mpr ⟨hP, hP'⟩⟩
  rw [hmore, hnew, List.append_assoc]

theorem GrowsBy.mono {P P' : AlertEvent → Prop} (h : GrowsBy P data data')
    (hP : ∀ event, P event → P' event) : GrowsBy P' data data' := by
  obtain ⟨new, hnew, hall⟩ := h
  exact ⟨new, hnew, fun event hevent => hP event (hall event hevent)⟩

/-- **The share of a call**: it records events of its own, and nobody else records such events. -/
def resultShare (c : ResultSettings) (data : Data) (n : ResultNotice) (day : ℤ) : Share Data where
  Inv := SameTables data
  Ours := GrowsBy (Claims c n day)
  Theirs := GrowsBy fun event => ¬ Claims c n day event
  ours_refl := GrowsBy.refl _
  theirs_refl := GrowsBy.refl _
  theirs_trans _ _ _ := GrowsBy.trans

/-- The server takes what is written. -/
def Taken (_ : Store Data EventKey Empty) (_ : Option EventKey) (ws : List DataWrite) : Prop := ws ≠ []

/-- What a call is told that has begun on a day. -/
abbrev EnvFrom (day : ℤ) : Type := { e : Env // day ≤ e.now / 1000000 / 86400 }

/-- Any such answer is an answer. -/
abbrev sinceDay (day : ℤ) (e : EnvFrom day) : Env := e.val

section Call

variable {c : ResultSettings} {data : Data} {n : ResultNotice} {day : ℤ} {p : TxId}
  {done rules : List AlertRule} {ws : List DataWrite} {s t : Store Data EventKey Empty}

/-- Where a call stands: the rules behind it have been told, and no event for those ahead of it has been
recorded. -/
structure Telling (c : ResultSettings) (data : Data) (n : ResultNotice) (day : ℤ)
    (done rules : List AlertRule) (ws : List DataWrite) (s : Store Data EventKey Empty) : Prop where
  fresh : ∀ event ∈ s.data.events ++ eventsOf ws, Claims c n day event →
    ∀ rule ∈ rules, event.ruleId ≠ rule.id
  own : ∀ event ∈ eventsOf ws, Claims c n day event
  told : ∀ rule ∈ done, covers c.depth data rule (orgOf c data n.machineId) →
    ∃ event ∈ s.data.events ++ eventsOf ws, event.ruleId = rule.id ∧ naming n.investigationId event

theorem stable_telling :
    Stable ((resultShare c data n day).discipline p Taken) p (Telling c data n day done rules) where
  rely ws s t hst h := by
    obtain ⟨new, hnew, hothers⟩ := hst rfl
    refine ⟨fun event hevent hclaims => ?_, h.own, fun rule hrule hcovers => ?_⟩
    · rw [hnew, List.append_assoc, List.mem_append, List.mem_append] at hevent
      rcases hevent with hold | hother | hown
      · exact h.fresh event (List.mem_append_left _ hold) hclaims
      · exact absurd hclaims (hothers event hother)
      · exact h.fresh event (List.mem_append_right _ hown) hclaims
    · obtain ⟨event, hevent, hboth⟩ := h.told rule hrule hcovers
      refine ⟨event, ?_, hboth⟩
      rw [hnew, List.append_assoc, List.mem_append, List.mem_append]
      rcases List.mem_append.mp hevent with hold | hown
      · exact .inl hold
      · exact .inr (.inr hown)
  draw _ _ h := ⟨h.fresh, h.own, h.told⟩
  lock ws s row h := by
    refine ⟨?_, h.own, ?_⟩
    · rw [Store.data_lock]
      exact h.fresh
    · rw [Store.data_lock]
      exact h.told

theorem told_bind {α β : Type} {C : β → Prop} {m : Trigger β}
    {f : β → Prog Data EventKey DataWrite (EnvFrom day) Empty α}
    {Q : α → List DataWrite → Store Data EventKey Empty → Prop}
    (hm : m.Only (fun _ => False) (fun _ => False) C) (h : Telling c data n day done rules ws s)
    (hf : ∀ b vs t, C b → Telling c data n day done rules vs t →
      (f b).Safe ((resultShare c data n day).discipline p Taken) p Q vs t) :
    (m.told (sinceDay day) >>= f).Safe ((resultShare c data n day).discipline p Taken) p Q ws s :=
  stable_telling.bind (fun _ _ _ hw => hw.elim) (hm.told (sinceDay day)) h hf

theorem events_view : (s.view ws).events = s.data.events ++ eventsOf ws := applyAll_events

/-- **A commit** of what the call has written. -/
theorem publish_telling (h : Telling c data n day done rules ws s) (hs : SameTables data s.data)
    (note : List Empty) : SameTables data (s.publish p ws note).data ∧
      ((resultShare c data n day).discipline p Taken).Guar p s (s.publish p ws note) ∧
      Telling c data n day done rules [] (s.publish p ws note) := by
  have hevents : (s.publish p ws note).data.events = s.data.events ++ eventsOf ws := events_view
  refine ⟨hs.applyAll ws, ⟨fun _ => ⟨eventsOf ws, hevents, h.own⟩, fun hne => absurd rfl hne⟩, ?_, ?_, ?_⟩
  · rw [hevents]
    simpa [eventsOf] using h.fresh
  · exact List.forall_mem_nil _
  · rw [hevents]
    simpa [eventsOf] using h.told

variable {rule : AlertRule}

theorem Telling.pass (h : Telling c data n day done (rule :: rules) ws s)
    (hpass : ¬ covers c.depth data rule (orgOf c data n.machineId)) :
    Telling c data n day (done ++ [rule]) rules ws s where
  fresh event hevent hclaims next hnext := h.fresh event hevent hclaims next (List.mem_cons_of_mem rule hnext)
  own := h.own
  told next hnext hcovers := by
    rcases List.mem_append.mp hnext with hdone | hnow
    · exact h.told next hdone hcovers
    · rw [List.mem_singleton.mp hnow] at hcovers
      exact absurd hcovers hpass

theorem Telling.record {event : AlertEvent} (hnodup : ((rule :: rules).map AlertRule.id).Nodup)
    (h : Telling c data n day done (rule :: rules) ws s) (hrule : event.ruleId = rule.id)
    (hclaims : Claims c n day event) (hnaming : naming n.investigationId event) :
    Telling c data n day (done ++ [rule]) rules (ws ++ [.event event]) s := by
  have hevents : eventsOf (ws ++ [.event event]) = eventsOf ws ++ [event] := eventsOf_append
  rw [List.map_cons, List.nodup_cons] at hnodup
  refine ⟨?_, ?_, ?_⟩
  · rw [hevents, ← List.append_assoc]
    intro other hother hother' next hnext
    rcases List.mem_append.mp hother with hold | hnew
    · exact h.fresh other hold hother' next (List.mem_cons_of_mem rule hnext)
    · rw [List.mem_singleton.mp hnew, hrule]
      exact fun hsame => hnodup.1 (hsame ▸ List.mem_map_of_mem hnext)
  · rw [hevents]
    exact List.forall_mem_append.mpr ⟨h.own, List.forall_mem_singleton.mpr hclaims⟩
  · rw [hevents, ← List.append_assoc]
    intro next hnext hcovers
    rcases List.mem_append.mp hnext with hdone | hnow
    · obtain ⟨other, hother, hboth⟩ := h.told next hdone hcovers
      exact ⟨other, List.mem_append_left _ hother, hboth⟩
    · rw [List.mem_singleton.mp hnow]
      exact ⟨event, by simp, hrule, hnaming⟩

theorem told_insertEvent {event : AlertEvent} (hnodup : ((rule :: rules).map AlertRule.id).Nodup)
    (h : Telling c data n day done (rule :: rules) ws s) (hrule : event.ruleId = rule.id)
    (hclaims : Claims c n day event) (hnaming : naming n.investigationId event) :
    ((insertEvent event).told (sinceDay day)).Safe ((resultShare c data n day).discipline p Taken) p
      (fun admitted vs t => admitted = true ∧ Telling c data n day (done ++ [rule]) rules vs t) ws s := by
  unfold insertEvent
  rw [hclaims.1]
  intro t hst _ hrow
  have ht : Telling c data n day done (rule :: rules) ws t := stable_telling.rely _ _ _ hst h
  have htaken : (if recorded (t.view ws) event.ruleId (some (c.uuid n.machineId)) event.fingerprint = [] then
      [DataWrite.event event] else []) ≠ [] := hrow.2
  have hfree : recorded (t.view ws) event.ruleId (some (c.uuid n.machineId)) event.fingerprint = [] := by
    by_contra hne
    rw [if_neg hne] at htaken
    exact htaken rfl
  show _ = true ∧ Telling c data n day (done ++ [rule]) rules (ws ++ ite _ _ _) _
  rw [if_pos hfree]
  exact ⟨decide_eq_true hfree, stable_telling.lock _ _ _ (ht.record hnodup hrule hclaims hnaming)⟩

theorem alertKey_clean (id : ℕ) : (alertKey id).toList.contains (Char.ofNat 0) = false := by
  have hdigits : Char.ofNat 0 ∉ (toString id).toList := by
    intro hmem
    have hmem' : Char.ofNat 0 ∈ Nat.toDigits 10 id := by simpa [toString, Nat.repr] using hmem
    exact absurd (Nat.isDigit_of_mem_toDigits (by decide) (by decide) hmem') (by decide)
  rw [Bool.eq_false_iff, Ne, List.contains_iff_mem, alertKey, String.toList_append, String.toList_append]
  simp only [List.mem_append, not_or]
  exact ⟨⟨by decide, hdigits⟩, by decide⟩

theorem only_existingRows_call (event : AlertEvent) :
    (existingRows calmServer.check event.call).Only (fun _ => False) (fun _ => False)
      fun rows => rows.isSome = true := by
  unfold existingRows withKey
  rw [givenKey_call]
  dsimp only
  rw [alertKey_clean]
  exact only_select _ fun _ => rfl

theorem told_createNotification (event : AlertEvent) (recipients : List Uuid)
    (h : Telling c data n day done rules ws s) :
    ((createNotification event.call recipients calmServer).told (sinceDay day)).Safe
      ((resultShare c data n day).discipline p Taken) p
      (fun result vs t => result = .ok false ∧ Telling c data n day done rules vs t) ws s := by
  unfold createNotification
  by_cases hnobody : recipients = []
  · rw [if_pos hnobody]
    exact ⟨rfl, h⟩
  rw [if_neg hnobody, Prog.told_bind]
  refine told_bind (only_existingRows_call event) h fun existing vs t hexisting ht => ?_
  match existing with
  | none => cases hexisting
  | some (_ :: _) => exact ⟨rfl, ht⟩
  | some [] =>
    rw [Prog.told_bind]
    refine told_bind (only_newRows event.call recipients) ht fun rows vs t _ ht => ?_
    intro u htu _ hrow
    have hu : Telling c data n day done rules vs u := stable_telling.rely _ _ _ htu ht
    have htaken : (if admitsRows calmServer.insert rows (u.view vs) then
        [DataWrite.notifications rows] else []) ≠ [] := hrow.2
    have hadmits : admitsRows calmServer.insert rows (u.view vs) = true := by
      by_contra hne
      rw [if_neg hne] at htaken
      exact htaken rfl
    have hrows : Telling c data n day done rules (vs ++ [.notifications rows]) u := by
      have hsame : eventsOf (vs ++ [.notifications rows]) = eventsOf vs := by simp [eventsOf]
      exact ⟨hsame ▸ hu.fresh, hsame ▸ hu.own, hsame ▸ hu.told⟩
    change (Prog.told (sinceDay day) (ite (admitsRows calmServer.insert rows (u.view vs) = true) _ _)).Safe
      _ p _ (vs ++ ite _ _ _) _
    rw [if_pos hadmits, if_pos hadmits]
    intro v huv hv _
    obtain ⟨hv', hguar, htold⟩ := publish_telling (stable_telling.rely _ _ _ huv hrows) hv []
    have hrefresh : afterCommit recipients calmServer = .ok false := by simp [afterCommit, calmServer]
    exact ⟨hv', hguar, hrefresh, htold⟩

theorem told_deliver (event : AlertEvent) (recipients : List Recipient)
    (h : Telling c data n day done rules ws s) :
    ((deliver event recipients calmServer).told (sinceDay day)).Safe
      ((resultShare c data n day).discipline p Taken) p
      (fun result vs t => result = .ok false ∧ Telling c data n day done rules vs t) ws s := by
  unfold deliver
  split_ifs with hnobody
  · exact ⟨rfl, h⟩
  · exact told_createNotification event _ h

/-- How a round of the loop ends: without an error, and with the session in order. -/
def GoesOn (result : Except AlertFailure (Option AlertEvent × Bool)) : Prop :=
  ∃ event, result = .ok (event, false)

theorem told_recordEvent {alert : Alert} (template : AlertTemplate) (scopeIds : List Uuid)
    (hfaults : alert.faults rule.id = calmServer) (hnodup : ((rule :: rules).map AlertRule.id).Nodup)
    (hclaims : ∀ recipients id, Claims c n day (newEvent alert template rule recipients id))
    (hnaming : ("investigation_id", Json.str n.investigationId) ∈ alert.context)
    (h : Telling c data n day done (rule :: rules) ws s) :
    ((recordEvent alert template rule scopeIds).told (sinceDay day)).Safe
      ((resultShare c data n day).discipline p Taken) p
      (fun result vs t => GoesOn result ∧ Telling c data n day (done ++ [rule]) rules vs t) ws s := by
  unfold recordEvent
  rw [Prog.told_bind]
  refine told_bind (only_resolveRecipients template scopeIds) h fun recipients vs t _ ht u htu _ => ?_
  have hu : Telling c data n day done (rule :: rules) vs (u.draw p) :=
    stable_telling.draw _ _ (stable_telling.rely _ _ _ htu ht)
  change ((insertEvent (newEvent alert template rule recipients u.drawn.length) >>= _).told
    (sinceDay day)).Safe _ p _ _ _
  rw [Prog.told_bind]
  refine (told_insertEvent hnodup hu rfl (hclaims recipients _) hnaming).bind fun admitted vs t hadmitted => ?_
  obtain ⟨rfl, ht⟩ := hadmitted
  change ((deliver _ recipients (alert.faults rule.id) >>= _).told (sinceDay day)).Safe _ p _ _ _
  rw [hfaults, Prog.told_bind]
  refine (told_deliver _ recipients ht).bind fun delivered vs t hdelivered => ?_
  obtain ⟨rfl, ht⟩ := hdelivered
  exact ⟨⟨_, rfl⟩, ht⟩

theorem told_ruleScope (hfits : ∀ orgId, rule.orgId = some orgId →
      scopeOrgs c.depth data.organizations (some orgId) rule.scopeMode ≠ none)
    (h : Telling c data n day done rules ws s) :
    ((ruleScope (n.call c data) rule).told (sinceDay day)).Safe
      ((resultShare c data n day).discipline p Taken) p
      (fun scope vs t => (scope = .ok none ∧ ¬ covers c.depth data rule (orgOf c data n.machineId) ∨
        ∃ ids, scope = .ok (some ids)) ∧ Telling c data n day done rules vs t) ws s := by
  -- the query gives the organisations of the tables
  have hscope : ∀ (orgId : Option Uuid) (scopeMode : ScopeMode) {α : Type}
      (f : Option (List Uuid) → Trigger α) (Q : α → List DataWrite → Store Data EventKey Empty → Prop),
      (∀ t, Telling c data n day done rules ws t →
        ((f (scopeOrgs c.depth data.organizations orgId scopeMode)).told (sinceDay day)).Safe
          ((resultShare c data n day).discipline p Taken) p Q ws t) →
      ((scopeOrgsOf c.depth orgId scopeMode >>= f).told (sinceDay day)).Safe
        ((resultShare c data n day).discipline p Taken) p Q ws s := by
    intro orgId scopeMode α f Q hf
    unfold scopeOrgsOf
    split_ifs with hshort
    · have hsame : scopeOrgs c.depth data.organizations orgId scopeMode = some orgId.toList := by
        unfold scopeOrgs
        rw [if_neg hshort.1]
        cases orgId with
        | none => rfl
        | some id => exact if_pos (hshort.2.resolve_left nofun)
      have hs := hf s h
      rw [hsame] at hs
      exact hs
    · intro t hst ht
      have hkept : SameTables data t.data := ht
      have hsame : (t.view ws).organizations = data.organizations := (hkept.applyAll ws).organizations
      have hs := hf t (stable_telling.rely _ _ _ hst h)
      rw [← hsame] at hs
      exact hs
  unfold ruleScope
  by_cases hsystem : rule.scopeMode = .system
  · rw [if_neg (not_not.mpr hsystem)]
    refine hscope none .system _ _ fun t ht => ?_
    exact ⟨.inr ⟨_, rfl⟩, ht⟩
  · rw [if_pos hsystem]
    cases horg : rule.orgId with
    | none =>
      refine ⟨.inl ⟨rfl, ?_⟩, h⟩
      rintro (hsys | ⟨ruleOrg, ids, hrule, -⟩)
      · exact hsystem hsys
      · rw [horg] at hrule
        cases hrule
    | some orgId =>
      refine hscope (some orgId) rule.scopeMode _ _ fun t ht => ?_
      cases hids : scopeOrgs c.depth data.organizations (some orgId) rule.scopeMode with
      | none => exact absurd hids (hfits orgId horg)
      | some ids =>
        by_cases hmem : orgOf c data n.machineId ∈ ids.map some
        · refine ⟨.inr ⟨ids, ?_⟩, ht⟩
          show Except.ok (if _ then _ else _) = _
          exact congrArg Except.ok (if_pos (inScope_iff.mpr hmem))
        · refine ⟨.inl ⟨congrArg Except.ok (if_neg fun hin => hmem (inScope_iff.mp hin)), ?_⟩, ht⟩
          rintro (hsys | ⟨ruleOrg, ids', hrule, hids', hmem'⟩)
          · exact hsystem hsys
          · rw [horg] at hrule
            obtain rfl := Option.some.inj hrule
            rw [hids] at hids'
            obtain rfl := Option.some.inj hids'
            exact hmem hmem'

theorem claims_newEvent (template : AlertTemplate) (context : List (String × Json)) (rule : AlertRule)
    {now : Time} (hday : day ≤ now / 1000000 / 86400) (recipients : List Recipient) (id : ℕ) :
    Claims c n day (newEvent ((n.call c data).alert c.sha256 template context (now / 1000000 / 86400))
      template rule recipients id) :=
  ⟨rfl, _, hday, rfl⟩

theorem told_alertRule (template : AlertTemplate) {context : List (String × Json)}
    (hcontext : ("investigation_id", Json.str n.investigationId) ∈ context)
    (hfits : ∀ orgId, rule.orgId = some orgId →
      scopeOrgs c.depth data.organizations (some orgId) rule.scopeMode ≠ none)
    (hnodup : ((rule :: rules).map AlertRule.id).Nodup)
    (h : Telling c data n day done (rule :: rules) ws s) :
    ((alertRule c.sha256 (n.call c data) template context rule).told (sinceDay day)).Safe
      ((resultShare c data n day).discipline p Taken) p
      (fun result vs t => GoesOn result ∧ Telling c data n day (done ++ [rule]) rules vs t) ws s := by
  unfold alertRule
  rw [Prog.told_bind]
  refine (told_ruleScope hfits h).bind fun scope vs t hscope => ?_
  obtain ⟨⟨rfl, hpass⟩ | ⟨ids, rfl⟩, ht⟩ := hscope
  · exact ⟨⟨none, rfl⟩, ht.pass hpass⟩
  intro u e htu _ v huv _
  have hv : Telling c data n day done (rule :: rules) vs v :=
    stable_telling.rely _ _ _ huv (stable_telling.rely _ _ _ htu ht)
  have hclaims : ∀ recipients id, Claims c n day (newEvent ((n.call c data).alert c.sha256 template context
      (e.1.now / 1000000 / 86400)) template rule recipients id) := claims_newEvent template context rule e.2
  -- the query finds nothing: an event that it found would be one of the call for this rule
  have hnone : (v.view vs).duplicates ((n.call c data).alert c.sha256 template context
      (e.1.now / 1000000 / 86400)) rule = [] := by
    refine List.filter_eq_nil_iff.mpr fun event hevent hboth => ?_
    obtain ⟨hrule, hmachine, hprint⟩ := of_decide_eq_true hboth
    rw [events_view] at hevent
    refine hv.fresh event hevent ⟨hmachine, _, e.2, ?_⟩ rule List.mem_cons_self hrule
    rw [hrule]
    exact hprint
  dsimp only
  rw [hnone]
  exact told_recordEvent template ids rfl hnodup hclaims hcontext hv

theorem told_alertRules (template : AlertTemplate) {context : List (String × Json)}
    (hcontext : ("investigation_id", Json.str n.investigationId) ∈ context)
    (hfits : ∀ rule ∈ rules, ∀ orgId, rule.orgId = some orgId →
      scopeOrgs c.depth data.organizations (some orgId) rule.scopeMode ≠ none)
    (hnodup : (rules.map AlertRule.id).Nodup) (h : Telling c data n day done rules ws s) :
    ((alertRules c.sha256 (n.call c data) template context rules false).told (sinceDay day)).Safe
      ((resultShare c data n day).discipline p Taken) p
      (fun result vs t => (∃ events, result = .ok events) ∧ Telling c data n day (done ++ rules) [] vs t)
      ws s := by
  induction rules generalizing done ws s with
  | nil =>
    rw [List.append_nil]
    exact ⟨⟨[], rfl⟩, h⟩
  | cons rule rules ih =>
    unfold alertRules
    rw [if_neg (by simp), Prog.told_bind]
    refine (told_alertRule template hcontext (hfits rule List.mem_cons_self) hnodup h).bind
      fun result vs t hresult => ?_
    obtain ⟨⟨event, rfl⟩, ht⟩ := hresult
    rw [List.map_cons, List.nodup_cons] at hnodup
    change ((alertRules c.sha256 (n.call c data) template context rules false >>= _).told (sinceDay day)).Safe
      _ p _ _ _
    rw [Prog.told_bind]
    refine (ih (fun next hnext => hfits next (List.mem_cons_of_mem rule hnext)) hnodup.2 ht).bind
      fun events vs t hevents => ?_
    obtain ⟨⟨events, rfl⟩, ht⟩ := hevents
    rw [List.append_cons]
    exact ⟨⟨_, rfl⟩, ht⟩

theorem mem_setDefaults {entry : String × Json} (context defaults : List (String × Json))
    (h : entry ∈ context) : entry ∈ setDefaults context defaults := by
  induction defaults generalizing context with
  | nil => exact h
  | cons next defaults ih =>
    refine ih _ ?_
    split_ifs with hknown
    · exact h
    · exact List.mem_append_left _ h

/-- **A call tells every rule** that the alert concerns. -/
theorem told_triggerAlert (henabled : (data.templateOf (templateCodeOf n.status)).isSome = true)
    (hnodup : (data.rules.map AlertRule.id).Nodup)
    (hfits : ScopesFit c.depth data (templateCodeOf n.status))
    (hfresh : ∀ event ∈ s.data.events, ¬ Claims c n day event) :
    ((triggerAlert c.sha256 (n.call c data)).told (sinceDay day)).Safe
      ((resultShare c data n day).discipline p Taken) p
      (fun _ _ t => AnnouncedAs c data t.data.events n.investigationId n.machineId
        (templateCodeOf n.status)) [] s := by
  have hstart : Telling c data n day [] (data.rulesOf (templateCodeOf n.status)) [] s := by
    refine ⟨fun event hevent hclaims => ?_, List.forall_mem_nil _, fun _ h => absurd h List.not_mem_nil⟩
    rw [eventsOf, List.filterMap_nil, List.append_nil] at hevent
    exact absurd hclaims (hfresh event hevent)
  have hnodup' : ((data.rulesOf (templateCodeOf n.status)).map AlertRule.id).Nodup :=
    hnodup.sublist (List.filter_sublist.map _)
  obtain ⟨template, htemplate⟩ := Option.isSome_iff_exists.mp henabled
  unfold triggerAlert
  intro t hst ht
  have hkept : SameTables data t.data := ht
  have hfound : (t.view ([] : List DataWrite)).templateOf (n.call c data).templateCode = some template := by
    show (List.find? _ t.data.templates).filter _ = _
    rw [hkept.templates]
    exact htemplate
  dsimp only
  rw [hfound]
  intro u e htu _ v huv hv
  have hkept' : SameTables data v.data := hv
  have hrules : (v.view ([] : List DataWrite)).rulesOf (n.call c data).templateCode =
      data.rulesOf (templateCodeOf n.status) := by
    show List.filter _ v.data.rules = _
    rw [hkept'.rules]
    rfl
  have hv' : Telling c data n day [] (data.rulesOf (templateCodeOf n.status)) [] v :=
    stable_telling.rely _ _ _ huv (stable_telling.rely _ _ _ htu (stable_telling.rely _ _ _ hst hstart))
  have hcontext : ("investigation_id", Json.str n.investigationId) ∈
      setDefaults (n.call c data).context e.1.defaults := by
    refine mem_setDefaults _ _ ?_
    show _ ∈ n.context _
    unfold ResultNotice.context
    simp
  dsimp only
  rw [hrules]
  change ((ite (data.rulesOf (templateCodeOf n.status) = []) _ _ : Trigger _).told (sinceDay day)).Safe _ p _ [] v
  by_cases hnone : data.rulesOf (templateCodeOf n.status) = []
  · rw [if_pos hnone]
    intro rule hrule
    rw [hnone] at hrule
    exact absurd hrule List.not_mem_nil
  · rw [if_neg hnone, Prog.told_bind]
    refine (told_alertRules template hcontext hfits hnodup' hv').bind fun result vs w hresult => ?_
    obtain ⟨⟨events, rfl⟩, hw⟩ := hresult
    intro x hwx hx _
    obtain ⟨hx', hguar, htold⟩ := publish_telling (stable_telling.rely _ _ _ hwx hw) hx []
    refine ⟨hx', hguar, fun rule hrule hcovers => ?_⟩
    obtain ⟨event, hevent, hboth⟩ := htold.told rule (by simpa using hrule) hcovers
    rw [eventsOf, List.filterMap_nil, List.append_nil] at hevent
    exact ⟨event, hevent, hboth⟩

theorem AnnouncedAs.mono {events events' : List AlertEvent} {i : InvId} {machineId code : String}
    (h : AnnouncedAs c data events i machineId code) (hsub : ∀ event ∈ events, event ∈ events') :
    AnnouncedAs c data events' i machineId code := by
  intro rule hrule hcovers
  obtain ⟨event, hevent, hboth⟩ := h rule hrule hcovers
  exact ⟨event, hsub event hevent, hboth⟩

/-- What a call is to end with. -/
def Told (c : ResultSettings) (data : Data) (n : ResultNotice) (_ : Unit) (_ : List DataWrite)
    (s : Store Data EventKey Empty) : Prop :=
  AnnouncedAs c data s.data.events n.investigationId n.machineId (templateCodeOf n.status)

theorem told_others {a : Unit} (h : GrowsBy (fun event => ¬ Claims c n day event) s.data t.data)
    (hs : Told c data n a ws s) : Told c data n a ws t := by
  obtain ⟨new, hnew, -⟩ := h
  refine hs.mono fun event hevent => ?_
  rw [hnew]
  exact List.mem_append_left _ hevent

/-- **A call from its beginning to its end.** -/
theorem told_session (henabled : (data.templateOf (templateCodeOf n.status)).isSome = true)
    (hnodup : (data.rules.map AlertRule.id).Nodup)
    (hfits : ScopesFit c.depth data (templateCodeOf n.status))
    (hfresh : ∀ event ∈ s.data.events, ¬ Claims c n day event) :
    ((session (resultHandler c.sha256 (n.call c data))).told (sinceDay day)).Safe
      ((resultShare c data n day).discipline p Taken) p (Told c data n) [] s := by
  have hcall := told_triggerAlert (p := p) henabled hnodup hfits hfresh
  change (((resultHandler c.sha256 (n.call c data)) >>= fun _ => Prog.undo).told (sinceDay day)).Safe _ p _ [] s
  unfold resultHandler
  rw [Prog.bind_assoc, Prog.told_bind]
  refine hcall.bind fun result vs t ht u htu _ => ?_
  have hend : Told c data n () [] t := ht
  have hend' : Told c data n () [] u := told_others (htu rfl) hend
  exact hend'

end Call

/-! ## Which ends are announced -/

section Moves

variable {cfg : AssetInventory.Settings} {w : World} {p : Pid} {n : ResultNotice}

/-- The call is about the end that is written. -/
def ResultNotice.About (n : ResultNotice) (wr : Write) : Prop :=
  n.investigationId = wr.id ∧ n.machineId = wr.cur.machineId ∧ n.status = wr.cur.status

/-- The analysis of a row commits twice, and its call is about the second commit. -/
theorem about_analyze {i : InvId} {now : Time} {env : AnalyzeEnv} {inv : DfirInvestigation}
    (h : noticeOfAnalyze i env inv = some n) : (stateAnalyze now env inv).1.raised = none ∧
      ∀ tokens, ∀ f ∈ rowFlushes i tokens (stateAnalyze now env inv).1.session.flushed, ∀ wr ∈ f.writes,
        endsIt wr → n.About wr := by
  unfold noticeOfAnalyze at h
  unfold stateAnalyze
  split_ifs at h with hexternal
  rw [if_neg hexternal]
  cases hconfig : env.config with
  | none =>
    rw [hconfig] at h
    simp at h
  | some config =>
    cases hbundle : bundle (inv.rawArtifacts.getD []) with
    | error e =>
      rw [hconfig, hbundle] at h
      simp at h
    | ok artifacts =>
      rw [hconfig, hbundle] at h
      -- the first commit ends nothing, the second one is what the call is about
      cases hllm : env.llm with
      | raised e =>
        rw [hllm] at h
        simp at h
      | ok resp =>
        rw [hllm] at h
        obtain rfl := Option.some.inj h
        refine ⟨rfl, fun tokens f hf wr hwr hends => ?_⟩
        rcases List.mem_cons.mp hf with rfl | hf
        · rw [List.mem_singleton.mp hwr] at hends
          exact absurd rfl hends.2
        · rw [List.mem_singleton.mp hf, List.mem_singleton] at hwr
          rw [hwr]
          exact ⟨rfl, rfl, rfl⟩
      | llmError message =>
        rw [hllm] at h
        obtain rfl := Option.some.inj h
        refine ⟨rfl, fun tokens f hf wr hwr hends => ?_⟩
        rcases List.mem_cons.mp hf with rfl | hf
        · rw [List.mem_singleton.mp hwr] at hends
          exact absurd rfl hends.2
        · rw [List.mem_singleton.mp hf, List.mem_singleton] at hwr
          rw [hwr]
          exact ⟨rfl, rfl, rfl⟩

/-- **A call is about the end** that the move writes. -/
theorem about_of_move {m : Move} {e : Effect} (h : World.MoveCase cfg w p m e)
    (hn : noticeOf w p m = some n) : ∀ f ∈ e.proc.todo, ∀ wr ∈ f.writes, endsIt wr → n.About wr := by
  cases h with
  | @process i queue inv env hphase hobj =>
    unfold noticeOf at hn
    rw [hphase] at hn
    dsimp only at hn
    rw [hobj, Option.bind_some, noticeOfProcess] at hn
    split_ifs at hn with hlocal
    obtain ⟨hraised, habout⟩ := @about_analyze n i w.clock env.analyze inv hn
    have hprocess : processOne cfg i w.clock env inv = stateAnalyze w.clock env.analyze inv := by
      unfold processOne
      rw [if_neg hlocal.1, hlocal.2]
    have hboundary : localBoundary env.later (stateAnalyze w.clock env.analyze inv).1 =
        (stateAnalyze w.clock env.analyze inv).1.session := by
      unfold localBoundary
      rw [hraised]
    dsimp only
    rw [hprocess, hboundary]
    exact habout _
  | @callback i inv call eff hphase hfree hrow hok =>
    unfold noticeOf at hn
    dsimp only at hn
    rw [hrow, hok] at hn
    intro f hf wr hwr _
    rw [List.mem_singleton.mp hf, List.mem_singleton] at hwr
    rw [hwr]
    obtain ⟨-, -, ⟨-, rfl, -⟩ | ⟨-, rfl, -⟩⟩ := submitExternalResult_cases hok
    · cases hn
    · dsimp only [noticeOfCallback] at hn
      split_ifs at hn with herror
      · obtain rfl := Option.some.inj hn
        refine ⟨rfl, rfl, ?_⟩
        show Status.failed = (record w.clock call inv).status
        rw [record, if_pos herror]
        rfl
      · obtain rfl := Option.some.inj hn
        refine ⟨rfl, rfl, ?_⟩
        show Status.completed = (record w.clock call inv).status
        rw [record, if_neg herror]
        rfl
  | @callbackRefused i call err hphase herr =>
    unfold noticeOf at hn
    dsimp only at hn
    rw [herr] at hn
    cases hn
  | _ => cases hn

end Moves

/-! ## Runs -/

/-- What holds between any two steps. -/
structure DeskInv (c : ResultSettings) (data : Data) (d : Desk) : Prop where
  tables : SameTables data d.alerts.store.data
  /-- A call keeps to its share, and will have told every rule. -/
  calls : ∀ p n day, d.calling p = some (n, day) → day ≤ today d.world ∧
    ((d.alerts.txns p).prog.told (sinceDay day)).Safe
      ((resultShare c data n day).discipline p Taken) p (Told c data n) (d.alerts.txns p).pending
      d.alerts.store
  /-- Calls at the same time are about different events. -/
  apart : ∀ p q n b day day', p ≠ q → d.calling p = some (n, day) → d.calling q = some (b, day') →
    ∀ event, ¬ (Claims c n day event ∧ Claims c b day' event)
  /-- What a process owes is about the end that it is to commit. -/
  owed : ∀ p n, d.owed p = some n → ∀ f ∈ (d.world.procs p).todo, ∀ wr ∈ f.writes, endsIt wr → n.About wr
  each : ∀ p writes tokens, Event.committed p writes tokens ∈ d.world.log → ∀ wr ∈ writes, endsIt wr →
    AnnouncedAs c data d.alerts.store.data.events wr.id wr.cur.machineId (templateCodeOf wr.cur.status) ∨
      d.Ahead wr

section Steps

variable {c : ResultSettings} {data : Data} {d d' : Desk} {w : World} {p : Pid}

theorem today_mono {w w' : World} (h : w.clock ≤ w'.clock) : today w ≤ today w' :=
  Int.ediv_le_ediv (by decide) (Int.ediv_le_ediv (by decide) h)

theorem DeskInv.advance (h : DeskInv c data d) (hclock : d.world.clock ≤ w.clock)
    {owed : Pid → Option ResultNotice}
    (howed : ∀ q n, owed q = some n → ∀ f ∈ (w.procs q).todo, ∀ wr ∈ f.writes, endsIt wr → n.About wr)
    (hkept : ∀ q n, d.owed q = some n → owed q = some n)
    (hlog : ∀ q writes tokens, Event.committed q writes tokens ∈ w.log → ∀ wr ∈ writes, endsIt wr →
      Event.committed q writes tokens ∈ d.world.log ∨ ∃ q n, owed q = some n ∧ n.About wr) :
    DeskInv c data { d with world := w, owed := owed } where
  tables := h.tables
  calls q n day hq := by
    obtain ⟨hday, hsafe⟩ := h.calls q n day hq
    exact ⟨hday.trans (today_mono hclock), hsafe⟩
  apart := h.apart
  owed := howed
  each q writes tokens hmem wr hwr hends := by
    rcases hlog q writes tokens hmem wr hwr hends with hold | ⟨q', n, hq', habout⟩
    · refine (h.each q writes tokens hold wr hwr hends).imp_right ?_
      rintro ⟨q', n, hq' | hq', habout⟩
      · exact ⟨q', n, .inl (hkept q' n hq'), habout⟩
      · exact ⟨q', n, .inr hq', habout⟩
    · exact .inr ⟨q', n, .inl hq', habout⟩

theorem DeskInv.dfirStep (h : DeskInv c data d) {a : Action} (hop : Announces c d (.dfir a))
    (hstep : dfirStep c d a = some d') : DeskInv c data d' := by
  cases a with
  | advance t =>
    unfold Triggers.dfirStep at hstep
    obtain ⟨w, hw, rfl⟩ := Option.map_eq_some_iff.mp hstep
    cases step_cases hw
    have hclock : d.world.clock ≤ ({ d.world with clock := d.world.clock + t } : World).clock :=
      le_add_of_nonneg_right (Int.natCast_nonneg t)
    exact h.advance hclock h.owed (fun _ _ h => h) fun _ _ _ hmem _ _ _ => .inl hmem
  | create i env req =>
    unfold Triggers.dfirStep at hstep
    obtain ⟨w, hw, rfl⟩ := Option.map_eq_some_iff.mp hstep
    cases step_cases hw with
    | @created _ _ _ r hnew hfresh =>
      have hclock : d.world.clock ≤ ({ d.world with rows := d.world.rows.insert i r } : World).clock := le_rfl
      exact h.advance hclock h.owed (fun _ _ h => h) fun _ _ _ hmem _ _ _ => .inl hmem
    | refused => exact h
  | move p m =>
    unfold Triggers.dfirStep at hstep
    dsimp only at hstep
    split_ifs at hstep with hfree
    obtain ⟨w, hw, rfl⟩ := Option.map_eq_some_iff.mp hstep
    cases step_cases hw with
    | @move _ _ e htodo hmove =>
      have hclock : d.world.clock ≤ (d.world.moved p e).clock := le_rfl
      refine h.advance hclock (fun q n hq => ?_) (fun q n hq => ?_) fun q writes tokens hmem wr hwr _ => ?_
      · by_cases hqp : q = p
        · subst hqp
          rw [Function.update_self] at hq
          rw [World.procs_moved_self]
          exact about_of_move hmove hq
        · rw [Function.update_of_ne hqp] at hq
          rw [World.procs_moved_of_ne _ _ hqp]
          exact h.owed q n hq
      · have hqp : q ≠ p := by
          rintro rfl
          rw [hfree.1] at hq
          cases hq
        rw [Function.update_of_ne hqp]
        exact hq
      · left
        -- a move announces no commit
        rcases List.mem_append.mp hmem with hsaid | hold
        · rcases World.said_cases hmove with ⟨replies, hreplies⟩ | ⟨i, queue, -, rfl⟩
          · rw [hreplies] at hsaid
            obtain ⟨reply, -, heq⟩ := List.mem_map.mp hsaid
            cases heq
          · cases List.mem_singleton.mp hsaid
        · exact hold
  | commit p =>
    unfold Triggers.dfirStep at hstep
    dsimp only at hstep
    split_ifs at hstep with hfree
    obtain ⟨w, hw, rfl⟩ := Option.map_eq_some_iff.mp hstep
    cases step_cases hw with
    | @commit _ f rest htodo hlocks =>
      have hclock : d.world.clock ≤ (d.world.committed p f rest).clock := le_rfl
      refine h.advance hclock (fun q n hq g hg => ?_) (fun _ _ h => h)
        fun q writes tokens hmem wr hwr hends => ?_
      · by_cases hqp : q = p
        · subst hqp
          rw [World.procs_committed_self] at hg
          exact h.owed q n hq g (by rw [htodo]; exact List.mem_cons_of_mem f hg)
        · rw [World.procs_committed_of_ne _ _ _ hqp] at hg
          exact h.owed q n hq g hg
      · rcases List.mem_append.mp hmem with hreply | hmem
        · obtain ⟨reply, -, heq⟩ := List.mem_map.mp hreply
          cases heq
        · rcases List.mem_cons.mp hmem with heq | hold
          · -- the process owes the call for what it commits
            cases heq
            have hsome : (d.owed p).isSome = true := hop f (by rw [htodo]; rfl) wr hwr hends
            obtain ⟨n, hn⟩ := Option.isSome_iff_exists.mp hsome
            exact .inr ⟨p, n, hn, h.owed p n hn f (by rw [htodo]; exact List.mem_cons_self) wr hwr hends⟩
          · exact .inl hold
  | close p =>
    unfold Triggers.dfirStep at hstep
    obtain ⟨w, hw, rfl⟩ := Option.map_eq_some_iff.mp hstep
    cases step_cases hw
    obtain ⟨howes, hcalls⟩ : d.isFree p := hop
    have hnone : Function.update d.owed p none = d.owed := by
      rw [← howes, Function.update_eq_self]
    have hnone' : Function.update d.calling p none = d.calling := by
      rw [← hcalls, Function.update_eq_self]
    rw [hnone, hnone']
    refine ⟨h.tables, fun q n day hq => ?_, h.apart, fun q n hq => ?_, h.each⟩
    · have hqp : q ≠ p := by
        rintro rfl
        rw [hcalls] at hq
        cases hq
      obtain ⟨hday, hsafe⟩ := h.calls q n day hq
      refine ⟨hday, ?_⟩
      dsimp only
      rw [Function.update_of_ne hqp]
      exact Share.others hsafe (fun _ _ _ _ => told_others) (GrowsBy.refl _ _)
    · have hqp : q ≠ p := by
        rintro rfl
        rw [howes] at hq
        cases hq
      dsimp only
      rw [World.procs_close_of_ne _ hqp]
      exact h.owed q n hq

theorem DeskInv.beginCall (h : DeskInv c data d) (hnodup : (data.rules.map AlertRule.id).Nodup)
    (henabled : ∀ status, (data.templateOf (templateCodeOf status)).isSome = true)
    (hop : Announces c d (.call p)) (hstep : beginCall c d p = some d') : DeskInv c data d' := by
  unfold Triggers.beginCall at hstep
  cases howed : d.owed p with
  | none =>
    rw [howed] at hstep
    cases hstep
  | some n =>
    rw [howed] at hstep
    dsimp only at hstep
    split_ifs at hstep with hready
    obtain ⟨alerts, halerts, rfl⟩ := Option.map_eq_some_iff.mp hstep
    obtain ⟨hfresh, hfits⟩ := hop n howed
    have hsame : n.call c d.alerts.store.data = n.call c data := by
      unfold ResultNotice.call orgOf machineOf
      rw [h.tables.machines]
    have hfits' : ScopesFit c.depth data (templateCodeOf n.status) := by
      unfold ScopesFit Data.rulesOf at hfits ⊢
      rw [h.tables.rules, h.tables.organizations] at hfits
      exact hfits
    rw [hsame, Engine.step] at halerts
    split at halerts
    · cases halerts
      refine ⟨h.tables, fun q b day hq => ?_, fun q q' b b' day day' hne hq hq' => ?_, fun q b hq => ?_,
        fun q writes tokens hmem wr hwr hends => ?_⟩
      · dsimp only at hq
        by_cases hqp : q = p
        · subst hqp
          rw [Function.update_self, Option.some.injEq, Prod.mk.injEq] at hq
          obtain ⟨rfl, rfl⟩ := hq
          refine ⟨le_rfl, ?_⟩
          dsimp only
          rw [Function.update_self]
          exact told_session (henabled n.status) hnodup hfits' hfresh.recorded
        · rw [Function.update_of_ne hqp] at hq
          dsimp only
          rw [Function.update_of_ne hqp]
          exact h.calls q b day hq
      · -- the new call is apart from the others
        dsimp only at hq hq'
        by_cases hqp : q = p
        · subst hqp
          rw [Function.update_self, Option.some.injEq, Prod.mk.injEq] at hq
          obtain ⟨rfl, rfl⟩ := hq
          rw [Function.update_of_ne hne.symm] at hq'
          exact hfresh.pending q' b' day' hq'
        · rw [Function.update_of_ne hqp] at hq
          by_cases hqp' : q' = p
          · subst hqp'
            rw [Function.update_self, Option.some.injEq, Prod.mk.injEq] at hq'
            obtain ⟨rfl, rfl⟩ := hq'
            exact fun event hboth => hfresh.pending q b day hq event hboth.symm
          · rw [Function.update_of_ne hqp'] at hq'
            exact h.apart q q' b b' day day' hne hq hq'
      · dsimp only at hq
        have hqp : q ≠ p := by
          rintro rfl
          rw [Function.update_self] at hq
          cases hq
        rw [Function.update_of_ne hqp] at hq
        exact h.owed q b hq
      · refine (h.each q writes tokens hmem wr hwr hends).imp_right ?_
        rintro ⟨q', b, hahead, habout⟩
        by_cases hqp : q' = p
        · -- what the process has owed, it is calling now
          subst hqp
          have hb : b = n := by
            rcases hahead with hq' | ⟨day, hq'⟩
            · rw [howed] at hq'
              exact (Option.some.inj hq').symm
            · rw [hready.2] at hq'
              cases hq'
          exact ⟨q', n, .inr ⟨today d.world, Function.update_self ..⟩, hb ▸ habout⟩
        · refine ⟨q', b, ?_, habout⟩
          dsimp only
          rw [Function.update_of_ne hqp, Function.update_of_ne hqp]
          exact hahead
    · cases halerts

theorem DeskInv.statement (h : DeskInv c data d) {e : Env} (hop : Announces c d (.statement p e))
    (hstep : deskStep c d (.statement p e) = some d') : DeskInv c data d' := by
  unfold deskStep at hstep
  dsimp only at hstep
  split_ifs at hstep with hready
  obtain ⟨alerts, halerts, rfl⟩ := Option.map_eq_some_iff.mp hstep
  obtain ⟨⟨n, day⟩, hcalling⟩ := Option.isSome_iff_exists.mp hready.1
  obtain ⟨hday, hsafe⟩ := h.calls p n day hcalling
  obtain ⟨⟨store, x⟩, hx, rfl⟩ := Option.map_eq_some_iff.mp halerts
  have hlater : day ≤ e.now / 1000000 / 86400 := by
    rw [hready.2]
    exact hday
  obtain ⟨htables, hours, hsafe'⟩ := Share.step (sinceDay day) (e := ⟨e, hlater⟩)
    h.tables hsafe hop hx
  have hgrows : ∀ event ∈ d.alerts.store.data.events, event ∈ store.data.events := by
    obtain ⟨new, hnew, -⟩ := hours
    intro event hevent
    rw [hnew]
    exact List.mem_append_left _ hevent
  -- the other calls go on as before
  have hcalls : ∀ q b day', d.calling q = some (b, day') → day' ≤ today d.world ∧
      ((Function.update d.alerts.txns p x q).prog.told (sinceDay day')).Safe
        ((resultShare c data b day').discipline q Taken) q (Told c data b)
        (Function.update d.alerts.txns p x q).pending store := by
    intro q b day' hq
    by_cases hqp : q = p
    · subst hqp
      rw [hcalling, Option.some.injEq, Prod.mk.injEq] at hq
      obtain ⟨rfl, rfl⟩ := hq
      rw [Function.update_self]
      exact ⟨hday, hsafe'⟩
    · rw [Function.update_of_ne hqp]
      obtain ⟨hday', hq'⟩ := h.calls q b day' hq
      refine ⟨hday', Share.others hq' (fun _ _ _ _ => told_others) ?_⟩
      exact hours.mono fun event hclaims hother =>
        h.apart p q n b day day' (Ne.symm hqp) hcalling hq event ⟨hclaims, hother⟩
  have hkeeps : ∀ q b day', (if ended x.prog then Function.update d.calling p none else d.calling) q =
      some (b, day') → d.calling q = some (b, day') := by
    intro q b day' hq
    split_ifs at hq with hended
    · by_cases hqp : q = p
      · subst hqp
        rw [Function.update_self] at hq
        cases hq
      · rwa [Function.update_of_ne hqp] at hq
    · exact hq
  have hself : (Function.update d.alerts.txns p x p).prog = x.prog := by rw [Function.update_self]
  refine ⟨htables, fun q b day' hq => ?_, fun q q' b b' day day' hne hq hq' => ?_, h.owed,
    fun q writes tokens hmem wr hwr hends => ?_⟩
  · dsimp only at hq
    rw [hself] at hq
    exact hcalls q b day' (hkeeps q b day' hq)
  · dsimp only at hq hq'
    rw [hself] at hq hq'
    exact h.apart q q' b b' day day' hne (hkeeps q b day hq) (hkeeps q' b' day' hq')
  · rcases h.each q writes tokens hmem wr hwr hends with htold | ⟨q', b, hahead, habout⟩
    · exact .inl (htold.mono hgrows)
    · by_cases hover : q' = p ∧ ended x.prog = true ∧ d.owed q' ≠ some b
      · -- the call is over: it has told every rule
        obtain ⟨rfl, hended, howed⟩ := hover
        obtain ⟨day', hq'⟩ := hahead.resolve_left howed
        rw [hcalling, Option.some.injEq, Prod.mk.injEq] at hq'
        obtain ⟨rfl, rfl⟩ := hq'
        left
        have htold : Told c data n () x.pending store := by
          cases hprog : x.prog with
          | ret a =>
            rw [hprog] at hsafe'
            exact hsafe'
          | _ =>
            rw [hprog] at hended
            cases hended
        obtain ⟨hid, hmachine, hstatus⟩ := habout
        rw [← hid, ← hmachine, ← hstatus]
        exact htold
      · refine .inr ⟨q', b, ?_, habout⟩
        dsimp only
        rw [hself]
        rcases hahead with howed | ⟨day', hq'⟩
        · exact .inl howed
        · by_cases howed : d.owed q' = some b
          · exact .inl howed
          · refine .inr ⟨day', ?_⟩
            split_ifs with hended
            · have hqp : q' ≠ p := fun hqp => hover ⟨hqp, hended, howed⟩
              rw [Function.update_of_ne hqp]
              exact hq'
            · exact hq'

theorem DeskInv.start (hw : w.Quiet) : DeskInv c data (Desk.start w data) where
  tables := ⟨rfl, rfl, rfl, rfl⟩
  calls q n day hq := by
    have hnone : (none : Option (ResultNotice × ℤ)) = some (n, day) := hq
    cases hnone
  apart q q' b b' day day' _ hq _ := by
    have hnone : (none : Option (ResultNotice × ℤ)) = some (b, day) := hq
    cases hnone
  owed q n hq := by
    have hnone : (none : Option ResultNotice) = some n := hq
    cases hnone
  each p writes tokens hmem := by
    have hmem' : Event.committed p writes tokens ∈ w.log := hmem
    rw [hw.log] at hmem'
    exact absurd hmem' List.not_mem_nil

theorem DeskInv.step (h : DeskInv c data d) (hnodup : (data.rules.map AlertRule.id).Nodup)
    (henabled : ∀ status, (data.templateOf (templateCodeOf status)).isSome = true) {a : DeskAction}
    (hop : Announces c d a) (hstep : deskStep c d a = some d') : DeskInv c data d' := by
  cases a with
  | dfir a => exact h.dfirStep hop hstep
  | call p => exact h.beginCall hnodup henabled hop hstep
  | statement p e => exact h.statement hop hstep

end Steps

/-- **Every end is announced**, or its announcement is still ahead, in every run whose steps meet the
condition. -/
theorem eachAnnounced_of_runs (c : ResultSettings) {w : World} (hw : w.Quiet) {data : Data}
    (hnodup : (data.rules.map AlertRule.id).Nodup)
    (hcompleted : (data.templateOf "investigation_completed").isSome = true)
    (hfailed : (data.templateOf "investigation_failed").isSome = true) {d : Desk}
    (hrun : Runs (deskStep c) (Announces c) (Desk.start w data) d) : EachAnnounced c d := by
  have henabled : ∀ status, (data.templateOf (templateCodeOf status)).isSome = true := by
    intro status
    unfold templateCodeOf
    split_ifs with hstatus
    · exact hcompleted
    · exact hfailed
  have hstart : DeskInv c data (Desk.start w data) := .start hw
  have hend : DeskInv c data d :=
    hrun.invariant (fun _ _ _ hd hop hstep => hd.step hnodup henabled hop hstep) hstart
  intro p writes tokens hmem wr hwr hends
  refine (hend.each p writes tokens hmem wr hwr hends).imp_left fun htold rule hrule hcovers => ?_
  refine htold rule ?_ ?_
  · unfold Data.rulesOf at hrule ⊢
    rw [hend.tables.rules] at hrule
    exact hrule
  · unfold covers orgOf machineOf at hcovers ⊢
    rw [hend.tables.organizations, hend.tables.machines] at hcovers
    exact hcovers

/-! ## One result, and two on one day -/

namespace DeskAction

/-- The process that acts. -/
def actor : DeskAction → Option Pid
  | .dfir a => a.actor
  | .call p => some p
  | .statement p _ => some p

end DeskAction

/-- Beyond the first processes, nobody owes a call or makes one. -/
def Desk.Within (k : ℕ) (d : Desk) : Prop := ∀ q, k ≤ q → d.owed q = none ∧ d.calling q = none

variable {c : ResultSettings} {d d' : Desk}

theorem deskStep_other {a : DeskAction} {q : Pid}
    (hq : ∀ p ∈ a.actor, p ≠ q) (hstep : deskStep c d a = some d') :
    d'.owed q = d.owed q ∧ d'.calling q = d.calling q := by
  cases a with
  | dfir a =>
    cases a with
    | move p m =>
      have hqp : q ≠ p := Ne.symm (hq p rfl)
      unfold deskStep dfirStep at hstep
      dsimp only at hstep
      split_ifs at hstep
      obtain ⟨w, -, rfl⟩ := Option.map_eq_some_iff.mp hstep
      exact ⟨Function.update_of_ne hqp .., rfl⟩
    | commit p =>
      unfold deskStep dfirStep at hstep
      dsimp only at hstep
      split_ifs at hstep
      obtain ⟨w, -, rfl⟩ := Option.map_eq_some_iff.mp hstep
      exact ⟨rfl, rfl⟩
    | close p =>
      have hqp : q ≠ p := Ne.symm (hq p rfl)
      unfold deskStep dfirStep at hstep
      obtain ⟨w, -, rfl⟩ := Option.map_eq_some_iff.mp hstep
      exact ⟨Function.update_of_ne hqp .., Function.update_of_ne hqp ..⟩
    | _ =>
      unfold deskStep dfirStep at hstep
      obtain ⟨w, -, rfl⟩ := Option.map_eq_some_iff.mp hstep
      exact ⟨rfl, rfl⟩
  | call p =>
    have hqp : q ≠ p := Ne.symm (hq p rfl)
    unfold deskStep beginCall at hstep
    dsimp only at hstep
    split at hstep
    · cases hstep
    · split_ifs at hstep
      obtain ⟨alerts, -, rfl⟩ := Option.map_eq_some_iff.mp hstep
      exact ⟨Function.update_of_ne hqp .., Function.update_of_ne hqp ..⟩
  | statement p e =>
    have hqp : q ≠ p := Ne.symm (hq p rfl)
    unfold deskStep at hstep
    dsimp only at hstep
    split_ifs at hstep
    obtain ⟨alerts, -, rfl⟩ := Option.map_eq_some_iff.mp hstep
    refine ⟨rfl, ?_⟩
    dsimp only
    split_ifs
    · exact Function.update_of_ne hqp ..
    · rfl

/-- Only the first processes act. -/
def AmongDesks (k : ℕ) (_ : Desk) (a : DeskAction) : Prop := ∀ p ∈ a.actor, p < k

theorem Desk.Within.step {k : ℕ} {a : DeskAction} (hd : d.Within k)
    (hfirst : AmongDesks k d a) (hstep : deskStep c d a = some d') : d'.Within k := by
  intro q hq
  obtain ⟨howed, hcalling⟩ := deskStep_other (fun p hp => (Nat.lt_of_lt_of_le (hfirst p hp) hq).ne) hstep
  rw [howed, hcalling]
  exact hd q hq

theorem within_of_runs {k : ℕ} {w : World}
    (h : Runs (deskStep c) (AmongDesks k) (Desk.start w data) d) : d.Within k :=
  h.invariant (fun _ _ _ hd hfirst hstep => hd.step hfirst hstep) fun _ _ => ⟨rfl, rfl⟩

/-- One process announces the first result of all. -/
def AnnouncesFirst (d : Desk) (a : DeskAction) : Prop :=
  AmongDesks 1 d a ∧
    match a with
    | .dfir (.commit p) => ∀ f ∈ (d.world.procs p).todo.head?, ∀ wr ∈ f.writes, endsIt wr → (d.owed p).isSome
    | .dfir (.close _) => False
    | .call _ => d.calling 0 = none ∧ d.alerts.store.data.events = [] ∧
        ∀ rule ∈ d.alerts.store.data.rules, rule.orgId = none
    | .statement p e => WritesOnly (fun _ _ ws => ws ≠ []) d.alerts (.run p e : Op TriggerCall Env)
    | _ => True

instance (k : ℕ) (d : Desk) (a : DeskAction) : Decidable (AmongDesks k d a) := by
  unfold AmongDesks
  infer_instance

instance (d : Desk) (a : DeskAction) : Decidable (AnnouncesFirst d a) := by
  unfold AnnouncesFirst
  split <;> infer_instance

theorem announces_of_first {w : World}
    (h : Runs (deskStep c) AnnouncesFirst (Desk.start w data) d) :
    Runs (deskStep c) (Announces c) (Desk.start w data) d := by
  refine h.mono_of_invariant (fun _ _ _ hd hfirst hstep => Desk.Within.step hd hfirst.1 hstep)
    (fun d a hd hfirst => ?_) fun _ _ => ⟨rfl, rfl⟩
  obtain ⟨-, hfirst⟩ := hfirst
  cases a with
  | dfir a =>
    cases a with
    | commit p => exact hfirst
    | close p => exact hfirst.elim
    | _ => trivial
  | call p =>
    obtain ⟨hidle, hevents, hsystem⟩ := hfirst
    intro n _
    refine ⟨⟨fun event hevent => ?_, fun q b day hq => ?_⟩, fun rule hrule orgId horg => ?_⟩
    · rw [hevents] at hevent
      exact absurd hevent List.not_mem_nil
    · -- nobody else is calling
      have hnone : d.calling q = none := by
        rcases Nat.eq_zero_or_pos q with rfl | hpos
        · exact hidle
        · exact (hd q hpos).2
      rw [hnone] at hq
      cases hq
    · rw [hsystem rule (List.mem_of_mem_filter hrule)] at horg
      cases horg
  | statement p e => exact hfirst

/-- A machine, and a rule for each of the templates. -/
def exampleResults : Data :=
  { twoAdmins with
    users := []
    templates := [⟨"investigation_completed", true, "success", []⟩, ⟨"investigation_failed", true, "error", []⟩]
    rules := [⟨1, "investigation_completed", none, .system, true⟩, ⟨2, "investigation_failed", none, .system, true⟩]
    machines := [⟨7, 1, "online", none⟩] }

def exampleSettings : ResultSettings where
  cfg := sampleSettings 12
  sha256 := exampleSha
  uuid _ := 7
  hostname _ := .str "PC-01"
  render _ _ := ("PC-01", none)
  depth := 10

/-- A callback, and the call that it leads to, with the statements of it. -/
def announce (p : Pid) (i : InvId) (call : ResultCallback) (statements : ℕ) : List DeskAction :=
  [.dfir (.move p (.callback i call)), .dfir (.commit p), .call p] ++
    List.replicate statements (.statement p ⟨0, []⟩)

theorem eachAnnounced_of_one : ∃ d, Runs (deskStep exampleSettings) (Announces exampleSettings)
    (Desk.start twoDispatched exampleResults) d ∧
    d.alerts.store.data.events.map AlertEvent.ruleId = [1] ∧ EachAnnounced exampleSettings d := by
  obtain ⟨d, hrun, hevents⟩ := exists_runs_of_exec (G := AnnouncesFirst) (deskStep exampleSettings)
    (Desk.start twoDispatched exampleResults) (announce 0 "1" jobResult 12)
    (p := fun d => decide (d.alerts.store.data.events.map AlertEvent.ruleId = [1])) (by decide +kernel)
  have hrun' := announces_of_first hrun
  have hquiet : twoDispatched.Quiet := World.quiet_start 0 _ 0
  have hrules : (exampleResults.rules.map AlertRule.id).Nodup := by decide +kernel
  have hcompleted : (exampleResults.templateOf "investigation_completed").isSome = true := by decide +kernel
  have hfailed : (exampleResults.templateOf "investigation_failed").isSome = true := by decide +kernel
  exact ⟨d, hrun', of_decide_eq_true hevents,
    eachAnnounced_of_runs exampleSettings hquiet hrules hcompleted hfailed hrun'⟩

/-- An investigation has ended, and a rule for everybody is for results like it. -/
def endsFor (data : Data) (i : InvId) : Event → Bool
  | .committed _ writes _ => writes.any fun wr => decide (wr.id = i ∧ endsIt wr ∧
      ∃ rule ∈ data.rulesOf (templateCodeOf wr.cur.status), rule.scopeMode = .system)
  | _ => false

/-- An investigation has ended, no event names it, and none of the first processes is about to announce it. -/
def Unheard (k : ℕ) (i : InvId) (d : Desk) : Prop :=
  (∀ q < k, d.owed q = none ∧ d.calling q = none) ∧
    (∀ event ∈ d.alerts.store.data.events, ("investigation_id", Json.str i) ∉ event.context) ∧
    d.world.log.any (endsFor d.alerts.store.data i) = true

instance (k : ℕ) (i : InvId) (d : Desk) : Decidable (Unheard k i d) := by
  unfold Unheard
  infer_instance

theorem not_eachAnnounced {k : ℕ} {i : InvId} (hwithin : d.Within k)
    (h : Unheard k i d) : ¬ EachAnnounced c d := by
  obtain ⟨hfirst, hevents, hlog⟩ := h
  have hidle : ∀ q, d.owed q = none ∧ d.calling q = none := by
    intro q
    by_cases hq : q < k
    · exact hfirst q hq
    · exact hwithin q (Nat.le_of_not_lt hq)
  obtain ⟨e, hmem, he⟩ := List.any_eq_true.mp hlog
  intro heach
  cases e with
  | committed p writes tokens =>
    obtain ⟨wr, hwr, hwr'⟩ := List.any_eq_true.mp he
    obtain ⟨rfl, hends, rule, hrule, hsystem⟩ := of_decide_eq_true hwr'
    rcases heach p writes tokens hmem wr hwr hends with hannounced | ⟨q, n, hahead, -⟩
    · obtain ⟨event, hevent, -, hnaming⟩ := hannounced rule hrule (.inl hsystem)
      exact hevents event hevent hnaming
    · rcases hahead with howed | ⟨day, hcalling⟩
      · rw [(hidle q).1] at howed
        cases howed
      · rw [(hidle q).2] at hcalling
        cases hcalling
  | _ => cases he

/-- **Results that nobody hears of**: the second one of a machine on one day, and the end of an
investigation that is stopped. -/
theorem results_swallowed :
    (∃ d, Runs (deskStep exampleSettings) anyAction (Desk.start twoDispatched exampleResults) d ∧
      d.world.statusOf "2" = some .completed ∧ ¬ EachAnnounced exampleSettings d) ∧
    ∃ d, Runs (deskStep exampleSettings) anyAction (Desk.start twoDispatched exampleResults) d ∧
      d.world.statusOf "1" = some .failed ∧ ¬ EachAnnounced exampleSettings d := by
  constructor
  · obtain ⟨d, hrun, hd⟩ := exists_runs_of_exec (G := AmongDesks 2) (deskStep exampleSettings)
      (Desk.start twoDispatched exampleResults) (announce 0 "1" jobResult 12 ++ announce 1 "2" jobResult 8)
      (p := fun d => decide (d.world.statusOf "2" = some .completed ∧ Unheard 2 "2" d)) (by decide +kernel)
    obtain ⟨hstatus, hunheard⟩ := of_decide_eq_true hd
    exact ⟨d, hrun.mono fun _ _ _ => trivial, hstatus, not_eachAnnounced (within_of_runs hrun) hunheard⟩
  · obtain ⟨d, hrun, hd⟩ := exists_runs_of_exec (G := AmongDesks 1) (deskStep exampleSettings)
      (Desk.start twoDispatched exampleResults) [.dfir (.move 0 (.stop "1")), .dfir (.commit 0)]
      (p := fun d => decide (d.world.statusOf "1" = some .failed ∧ Unheard 1 "1" d)) (by decide +kernel)
    obtain ⟨hstatus, hunheard⟩ := of_decide_eq_true hd
    exact ⟨d, hrun.mono fun _ _ _ => trivial, hstatus, not_eachAnnounced (within_of_runs hrun) hunheard⟩

end AssetInventory.Monitor.Triggers

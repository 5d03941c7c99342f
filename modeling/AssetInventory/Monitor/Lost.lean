import AssetInventory.Monitor.Recording
import AssetInventory.Monitor.Triggers

/-!
# Alerts about lost machines

The monitor goes through the rules, and for a rule about lost machines through the machines in its scope that
are lost and have been silent for longer than its threshold.  The alert for such a machine then goes through
all rules about lost machines again, whatever their thresholds are.

* `Scan.scanAlerts`: the scan, with its session.
* `Scan.rounds`: the rules with their machines, in the order in which the scan comes to them.
* `First`: the first alert about a machine that a rule gets, where it has not got one yet.
* `scanAlerts_records`: the events that are new are those of first alerts; and where nobody is notified, each
  of them leaves one.
* `Respects`: what is expected of the events.
* `respects_iff`: this holds, whoever is notified, if and only if first alerts come from rules with the same
  threshold.
-/

namespace AssetInventory.Monitor

open PyJson PyTime UnitOfWork Server

/-! ## `_scan_alerts` -/

/-- `int(x)`; `none` is an exception. -/
def intValue : Json → Option ℤ
  | .num q => some (q.num.tdiv q.den)
  | .bool b => some (if b then 1 else 0)
  | .str s => intOf s
  | .null => none
  | .arr _ => none
  | .obj _ => none

/-- `timedelta(days=n)`. -/
def days (n : ℤ) : ℤ := seconds (n * 86400)

/-- What a scan is told, and what happens while it goes on. -/
structure Scan where
  now : Time
  /-- `rule.config or {}`, for the id of a rule. -/
  config : Uuid → List (String × Json)
  /-- `enrolled_at` of a machine. -/
  enrolledAt : Uuid → Time
  /-- `m.hostname or m.machine_uuid[:12]`. -/
  hostname : Uuid → String
  /-- What an alert reads of the organisation and of the machine. -/
  defaults : Uuid → List (String × Json)
  /-- The texts of a template in a context. -/
  render : String → List (String × Json) → String × Option String
  /-- The fingerprint, in the pass of a rule, for a machine and a rule; the day may change during a scan. -/
  fingerprint : Uuid → Uuid → Uuid → String
  depth : ℕ
  /-- What the server refuses of the notification, in the pass of a rule, for a machine and a rule. -/
  faults : Uuid → Uuid → Uuid → NotifyFaults

def machineNewWindowMinutes : ℤ := 30

namespace Scan

variable (scan : Scan)

/-- `int((rule.config or {}).get("threshold_days", 7))`. -/
def thresholdDays (rule : AlertRule) : Option ℤ :=
  intValue (getD (scan.config rule.id) "threshold_days" (.num 7))

/-- `now - timedelta(days=threshold)`; `none` is an `OverflowError`. -/
def lostCutoff (threshold : ℤ) : Option Time :=
  if (-999999999 ≤ threshold ∧ threshold ≤ 999999999) ∧ seconds (-62135596800) ≤ scan.now - days threshold ∧
      scan.now - days threshold < seconds 253402300800 then
    some (scan.now - days threshold)
  else none

/-- The machines that have been enrolled lately, in some organisations. -/
def newMachines (scopeIds : List Uuid) (data : Data) : List MonitoredMachine :=
  data.machines.filter fun m =>
    decide (scan.now - minutes machineNewWindowMinutes ≤ scan.enrolledAt m.id ∧ m.orgId ∈ scopeIds)

/-- The context of an alert about a new machine. -/
def newContext (m : MonitoredMachine) : List (String × Json) :=
  [("hostname", .str (scan.hostname m.id)), ("enrolled_at", .str (isoformat (scan.enrolledAt m.id)))]

/-- The context of an alert about a lost machine. -/
def lostContext (threshold : ℤ) (m : MonitoredMachine) : List (String × Json) :=
  [("hostname", .str (scan.hostname m.id)), ("threshold_days", .num threshold)]

/-- The alert about a machine, in the pass of a rule. -/
def alert (rule : AlertRule) (m : MonitoredMachine) (context : List (String × Json)) : Alert :=
  let ctx := Triggers.setDefaults context (scan.defaults m.id)
  { templateCode := rule.templateCode
    orgId := some m.orgId
    machineId := some m.id
    title := (scan.render rule.templateCode ctx).1
    body := (scan.render rule.templateCode ctx).2
    context := ctx
    fingerprint := scan.fingerprint rule.id m.id
    depth := scan.depth
    faults := scan.faults rule.id m.id }

end Scan

/-- The machines that are lost and have been silent since before the cutoff, in some organisations. -/
def Data.lostMachines (cutoff : Time) (scopeIds : List Uuid) (data : Data) : List MonitoredMachine :=
  data.machines.filter fun m => decide (m.status = "lost") &&
    m.lastSeenAt.all (fun seen => decide (seen < cutoff)) && decide (m.orgId ∈ scopeIds)

/-- One round of the loop over the machines. -/
def scanMachine (age : ℕ) (alert : Alert) : Work Data Unit := do
  Work.touch age
  let _ ← triggerAlert alert

/-- One round of the loop over the rules. -/
def Scan.scanRule (scan : Scan) (age : ℕ) (rule : AlertRule) : Work Data Unit := do
  Work.touch age
  let template ← Work.select false fun data =>
    data.templates.find? fun template => decide (template.code = rule.templateCode)
  if template.isSome then
    let scopeIds ← scopeOrgsOf scan.depth rule.orgId rule.scopeMode
    if scopeIds ≠ [] then
      if rule.templateCode = "machine_new" then
        let machines ← Work.select false (scan.newMachines scopeIds)
        let read ← Work.stamp
        machines.forM fun m => scanMachine read (scan.alert rule m (scan.newContext m))
      else if rule.templateCode = "machine_lost" then
        match scan.thresholdDays rule with
        | none => Work.throw (.other "ValueError")
        | some threshold =>
          match scan.lostCutoff threshold with
          | none => Work.throw (.other "OverflowError")
          | some cutoff => do
            let machines ← Work.select false (Data.lostMachines cutoff scopeIds)
            let read ← Work.stamp
            machines.forM fun m => scanMachine read (scan.alert rule m (scan.lostContext threshold m))

def Scan.scanAlerts (scan : Scan) : Work Data Unit := do
  let rules ← Work.select false fun data => data.rules.filter AlertRule.enabled
  if rules ≠ [] then
    let age ← Work.stamp
    rules.forM (scan.scanRule age)
    Work.commit false
    Work.commit false

/-! ## The rounds of a scan -/

/-- The organisations in the scope of a rule. -/
def Data.scopeOf (data : Data) (rule : AlertRule) : List Uuid :=
  (scopeOrgs (data.organizations.length + 2) data.organizations rule.orgId rule.scopeMode).getD []

namespace Scan

variable (scan : Scan)

/-- The machines of the pass of a rule; `none` if its configuration cannot be used. -/
def pass (data : Data) (rule : AlertRule) : Option (List MonitoredMachine) :=
  if data.templates.any (fun template => decide (template.code = rule.templateCode)) = false ∨
      data.scopeOf rule = [] then some []
  else if rule.templateCode = "machine_new" then some (scan.newMachines (data.scopeOf rule) data)
  else if rule.templateCode = "machine_lost" then
    ((scan.thresholdDays rule).bind scan.lostCutoff).map fun cutoff =>
      data.lostMachines cutoff (data.scopeOf rule)
  else some []

/-- The rules with the machines of their passes, up to a rule whose configuration cannot be used. -/
def roundsOf (data : Data) : List AlertRule → List (AlertRule × MonitoredMachine)
  | [] => []
  | rule :: rules =>
    match scan.pass data rule with
    | none => []
    | some machines => machines.map (rule, ·) ++ roundsOf data rules

/-- The rounds of a scan. -/
def rounds (data : Data) : List (AlertRule × MonitoredMachine) :=
  scan.roundsOf data (data.rules.filter AlertRule.enabled)

/-- The alert of a round. -/
def alertOf (rule : AlertRule) (m : MonitoredMachine) : Alert :=
  scan.alert rule m <| if rule.templateCode = "machine_new" then scan.newContext m
    else scan.lostContext ((scan.thresholdDays rule).getD 0) m

/-- The alert of this round, behind the rounds `before`, is the first one about its machine that reaches the
rule `r`: the rule has not been notified of the machine today. -/
structure First (data : Data) (before : List (AlertRule × MonitoredMachine)) (rule : AlertRule)
    (m : MonitoredMachine) (r : AlertRule) : Prop where
  template : data.templateOf rule.templateCode ≠ none
  mem : r ∈ data.rulesOf rule.templateCode
  covers : m.orgId ∈ data.scopeOf r
  fresh : ¬ Noted (scan.alertOf rule m) r data.events
  first : ∀ earlier, (earlier, m) ∈ before → earlier.templateCode = rule.templateCode →
    scan.fingerprint earlier.id m.id r.id ≠ scan.fingerprint rule.id m.id r.id

end Scan

/-! ## What a scan records -/

/-- The entry of an event under the unique key of the table. -/
def AlertEvent.uniqueKey (event : AlertEvent) : Option (Uuid × Uuid × String) :=
  event.machineId.map fun id => (event.ruleId, id, event.fingerprint)

/-- What the schema says of the tables. -/
structure Schema (data : Data) : Prop where
  rules : (data.rules.map AlertRule.id).Nodup
  machines : (data.machines.map MonitoredMachine.id).Nodup
  organizations : ∀ m ∈ data.machines, m.orgId ∈ data.organizations.map OrgRow.id
  events : (data.events.filterMap AlertEvent.uniqueKey).Nodup

namespace Scan

variable (scan : Scan) (data : Data)

/-- The event is that of a first alert. -/
def Recorded (event : AlertEvent) : Prop :=
  ∃ before rule m after r template recipients id, scan.rounds data = before ++ (rule, m) :: after ∧
    scan.First data before rule m r ∧
    event = newEvent (scan.alertOf rule m) template r recipients id

/-- The tables during a scan: only events are added, those of first alerts. -/
structure Keeps (now : Data) : Prop where
  rules : now.rules = data.rules
  organizations : now.organizations = data.organizations
  templates : now.templates = data.templates
  machines : now.machines = data.machines
  users : now.users = data.users
  once : (now.events.filterMap AlertEvent.uniqueKey).Nodup
  events : ∀ event ∈ now.events, event ∈ data.events ∨ scan.Recorded data event

/-- The events after these rounds: those from before the scan, and one for each rule that covers one of the
alerts. -/
def Base (done : List (AlertRule × MonitoredMachine)) (events : List AlertEvent) : Prop :=
  data.events ⊆ events ∧ ∀ rule m, (rule, m) ∈ done → data.templateOf rule.templateCode ≠ none →
    ∀ r ∈ data.rulesOf rule.templateCode, (scan.alertOf rule m).CoveredBy r data.organizations →
      Noted (scan.alertOf rule m) r events

/-- Nobody is notified, and the recursion does not come to its limit. -/
def Calm : Prop := data.users = [] ∧ data.organizations.length + 1 < scan.depth

end Scan

section Records

variable {scan : Scan} {data now : Data} {rule r : AlertRule} {m : MonitoredMachine} {s : Session Data}
  {age : ℕ} {done before after : List (AlertRule × MonitoredMachine)}

variable {machines : List MonitoredMachine}

theorem mem_pass (hpass : scan.pass data rule = some machines)
    (hm : m ∈ machines) : m ∈ data.machines := by
  unfold Scan.pass at hpass
  split_ifs at hpass
  · cases hpass
    exact absurd hm List.not_mem_nil
  · cases hpass
    exact List.mem_of_mem_filter hm
  · obtain ⟨cutoff, -, rfl⟩ := Option.map_eq_some_iff.mp hpass
    exact List.mem_of_mem_filter hm
  · cases hpass
    exact absurd hm List.not_mem_nil

variable {rules : List AlertRule}

theorem pass_of_mem_roundsOf (h : (rule, m) ∈ scan.roundsOf data rules) :
    rule ∈ rules ∧ ∃ machines, scan.pass data rule = some machines ∧ m ∈ machines := by
  induction rules with
  | nil => exact absurd h List.not_mem_nil
  | cons first rules ih =>
    rw [Scan.roundsOf] at h
    cases hpass : scan.pass data first with
    | none =>
      rw [hpass] at h
      exact absurd h List.not_mem_nil
    | some machines =>
      rw [hpass] at h
      rcases List.mem_append.mp h with h | h
      · obtain ⟨m', hm', heq⟩ := List.mem_map.mp h
        cases heq
        exact ⟨List.mem_cons_self, machines, hpass, hm'⟩
      · exact (ih h).imp_left (List.mem_cons_of_mem _)

theorem mem_roundsOf (h : (rule, m) ∈ scan.roundsOf data rules) : m ∈ data.machines := by
  obtain ⟨-, machines, hpass, hm⟩ := pass_of_mem_roundsOf h
  exact mem_pass hpass hm

theorem mem_scopeOf_of_coveredBy (horg : m.orgId ∈ data.organizations.map OrgRow.id)
    (h : (scan.alertOf rule m).CoveredBy r data.organizations) : m.orgId ∈ data.scopeOf r := by
  obtain ⟨scopeIds, hscope⟩ := h
  unfold Alert.scope at hscope
  unfold Data.scopeOf
  split_ifs at hscope with hmode
  · cases hid : r.orgId with
    | none =>
      rw [hid] at hscope
      cases hscope
    | some orgId =>
      rw [hid] at hscope
      obtain ⟨ids, hids, hmem⟩ := Option.map_eq_some_iff.mp hscope
      rw [scopeOrgs_deep hids, Option.getD_some]
      split_ifs at hmem with hin
      exact (List.mem_map_of_injective (Option.some_injective _)).mp hin
  · rw [not_not.mp hmode]
    exact horg

theorem coveredBy_of_mem_scopeOf (hdepth : data.organizations.length + 1 < scan.depth)
    (h : m.orgId ∈ data.scopeOf r) : (scan.alertOf rule m).CoveredBy r data.organizations := by
  obtain ⟨ids, hids⟩ := exists_scopeOrgs_deep data.organizations r.orgId r.scopeMode
  have hdeep := scopeOrgs_of_le (show data.organizations.length + 2 ≤ scan.depth from hdepth) hids
  rw [Data.scopeOf, hids, Option.getD_some] at h
  unfold Alert.CoveredBy Alert.scope
  split_ifs with hmode
  · cases hid : r.orgId with
    | none =>
      rw [hid] at hids
      exfalso
      unfold scopeOrgs at hids
      rw [if_neg hmode] at hids
      cases hids
      exact absurd h List.not_mem_nil
    | some orgId =>
      rw [hid] at hdeep
      refine ⟨ids, ?_⟩
      have hin : (scan.alertOf rule m).orgId ∈ ids.map some := List.mem_map_of_mem h
      show (scopeOrgs scan.depth data.organizations (some orgId) r.scopeMode).map _ = _
      rw [hdeep, Option.map_some, if_pos hin]
  · exact ⟨_, rfl⟩

theorem scope_ne_none (hdepth : data.organizations.length + 1 < scan.depth) :
    (scan.alertOf rule m).scope r data.organizations ≠ none := by
  obtain ⟨ids, hids⟩ := exists_scopeOrgs_deep data.organizations r.orgId r.scopeMode
  have hdeep := scopeOrgs_of_le (show data.organizations.length + 2 ≤ scan.depth from hdepth) hids
  unfold Alert.scope
  split_ifs with hmode
  · cases hid : r.orgId with
    | none => simp
    | some orgId =>
      rw [hid] at hdeep
      show (scopeOrgs scan.depth data.organizations (some orgId) r.scopeMode).map _ ≠ none
      rw [hdeep]
      simp
  · simp [scopeOrgs]

theorem length_duplicates_le (honce : (now.events.filterMap AlertEvent.uniqueKey).Nodup) {alert : Alert}
    (halert : alert.machineId = some m.id) : (now.duplicates alert r).length ≤ 1 := by
  have hkeys : (now.duplicates alert r).filterMap AlertEvent.uniqueKey =
      List.replicate (now.duplicates alert r).length (r.id, m.id, alert.fingerprint r.id) := by
    have hall : ∀ event ∈ now.duplicates alert r,
        event.uniqueKey = some (r.id, m.id, alert.fingerprint r.id) := by
      intro event hevent
      have hfor := List.of_mem_filter hevent
      rw [decide_eq_true_eq, halert] at hfor
      rw [AlertEvent.uniqueKey, hfor.2.1, hfor.1, hfor.2.2]
      rfl
    generalize now.duplicates alert r = events at hall
    induction events with
    | nil => rfl
    | cons event events ih =>
      rw [List.filterMap_cons_some (hall event List.mem_cons_self),
        ih fun e he => hall e (List.mem_cons_of_mem _ he)]
      rfl
  have hsub : (now.duplicates alert r).Sublist now.events := List.filter_sublist
  have hnodup := honce.sublist (hsub.filterMap AlertEvent.uniqueKey)
  rw [hkeys, List.nodup_replicate] at hnodup
  exact hnodup

theorem nodup_addEvent (honce : (now.events.filterMap AlertEvent.uniqueKey).Nodup) {alert : Alert}
    {event : AlertEvent} (hfor : event.IsFor alert r) (hnew : now.duplicates alert r = []) :
    ((now.addEvent event).events.filterMap AlertEvent.uniqueKey).Nodup := by
  show ((now.events ++ [event]).filterMap AlertEvent.uniqueKey).Nodup
  rw [List.filterMap_append]
  cases hkey : event.uniqueKey with
  | none =>
    rw [List.filterMap_cons_none hkey, List.filterMap_nil, List.append_nil]
    exact honce
  | some key =>
    rw [List.filterMap_cons_some hkey, List.filterMap_nil]
    refine List.Nodup.append honce (List.nodup_singleton key) ?_
    rw [List.disjoint_singleton]
    intro hmem
    obtain ⟨other, hother, hsame⟩ := List.mem_filterMap.mp hmem
    refine duplicates_eq_nil.mp hnew ⟨other, hother, ?_⟩
    obtain ⟨id, hid, hpair⟩ := Option.map_eq_some_iff.mp hkey
    obtain ⟨id', hid', hpair'⟩ := Option.map_eq_some_iff.mp hsame
    rw [← hpair] at hpair'
    obtain ⟨hrule, hmachine⟩ := Prod.mk.inj hpair'
    obtain ⟨hmachine, hfingerprint⟩ := Prod.mk.inj hmachine
    exact ⟨hrule.trans hfor.1, (hid'.trans (congrArg some hmachine)).trans (hid.symm.trans hfor.2.1),
      hfingerprint.trans hfor.2.2⟩

/-- **What the alert of a round respects.** -/
theorem recording_round (hschema : Schema data) (hrounds : scan.rounds data = before ++ (rule, m) :: after)
    (htemplate : data.templateOf rule.templateCode ≠ none) (template : AlertTemplate) :
    Recording (scan.Keeps data) (scan.Base data before) data.organizations (scan.alertOf rule m) template
      (data.rulesOf (scan.alertOf rule m).templateCode) (scan.Calm data) where
  organizations _ h := h.organizations
  send _ _ h := ⟨h.rules, h.organizations, h.templates, h.machines, h.users, h.once, h.events⟩
  mono hsub h := ⟨fun _ he => hsub (h.1 he), fun rule m hmem ht r hr hc => (h.2 rule m hmem ht r hr hc).mono hsub⟩
  add now r recipients hnow hbase hr hcovered hnew := by
    have hround : (rule, m) ∈ scan.rounds data := hrounds ▸ List.mem_append_right _ List.mem_cons_self
    have hm : m ∈ data.machines := mem_roundsOf hround
    have hfor := isFor_newEvent (scan.alertOf rule m) template r recipients now.nextEvent
    refine ⟨hnow.rules, hnow.organizations, hnow.templates, hnow.machines, hnow.users,
      nodup_addEvent hnow.once hfor hnew, ?_⟩
    intro event hevent
    rcases List.mem_append.mp hevent with hevent | hevent
    · exact hnow.events event hevent
    · rw [List.mem_singleton.mp hevent]
      refine .inr ⟨before, rule, m, after, r, template, recipients, now.nextEvent, hrounds, ?_, rfl⟩
      have hnone := duplicates_eq_nil.mp hnew
      refine ⟨htemplate, hr, mem_scopeOf_of_coveredBy (hschema.organizations m hm) hcovered,
        fun hnoted => hnone (hnoted.mono hbase.1), ?_⟩
      intro earlier hearlier hcode hsame
      -- the earlier alert has left an event
      obtain ⟨other, hother, hrule, hmachine, hfingerprint⟩ :=
        hbase.2 earlier m hearlier (hcode ▸ htemplate) r (hcode ▸ hr) hcovered
      exact hnone ⟨other, hother, hrule, hmachine, hfingerprint.trans hsame⟩
  users hcalm now hnow := hnow.users.trans hcalm.1
  scopes hcalm r _ := scope_ne_none hcalm.2
  once _ now hnow r _ := length_duplicates_le (m := m) hnow.once rfl

/-- The session goes on behind these rounds. -/
def GoesOn (scan : Scan) (data : Data) (age : ℕ) (done : List (AlertRule × MonitoredMachine))
    (s : Session Data) : Prop :=
  Follows (scan.Keeps data) (scan.Base data done) age s ∧ s.committed = s.pending

/-- **One round** of a scan. -/
theorem scanMachine_leaves (hschema : Schema data) (hrounds : scan.rounds data = before ++ (rule, m) :: after)
    (hs : GoesOn scan data age before s) :
    Leaves (scan.Keeps data) age (scan.Calm data) (GoesOn scan data age (before ++ [(rule, m)]))
      (scanMachine age (scan.alertOf rule m) s) := by
  obtain ⟨hs, hsame⟩ := hs
  have htouch : Work.touch age s = (.ok (), s) := if_pos hs.age_eq
  have hrecording : ∀ template, data.templateOf (scan.alertOf rule m).templateCode = some template →
      Recording (scan.Keeps data) (scan.Base data before) data.organizations (scan.alertOf rule m) template
        (data.rulesOf (scan.alertOf rule m).templateCode) (scan.Calm data) := by
    intro template htemplate
    have hknown : data.templateOf rule.templateCode ≠ none := by
      rw [show data.templateOf rule.templateCode = some template from htemplate]
      simp
    exact recording_round hschema hrounds hknown template
  have hleaves := triggerAlert_follows hrecording hs.pending.templates hs.pending.rules hs hsame
  unfold scanMachine
  rw [Work.bind_ok htouch]
  rcases htrigger : triggerAlert (scan.alertOf rule m) s with ⟨e | events, t⟩
  · rw [htrigger] at hleaves
    rw [Work.bind_error htrigger]
    exact hleaves
  · rw [htrigger] at hleaves
    rw [Work.bind_ok htrigger]
    refine hleaves.imp_left ?_
    rintro ⟨ht, hpub, hgrown, hall⟩
    refine ⟨⟨ht.ready, ht.stored, ht.age_eq, ht.committed, ht.pending, ht.base.1, ?_⟩, hpub⟩
    intro earlier m' hmem htemplate r hr hcovered
    rcases List.mem_append.mp hmem with hmem | hmem
    · exact ht.base.2 earlier m' hmem htemplate r hr hcovered
    · cases List.mem_singleton.mp hmem
      exact hall htemplate r hr hcovered

theorem machines_leave (hschema : Schema data)
    (hrounds : scan.rounds data = before ++ (machines.map (rule, ·) ++ after))
    (hs : GoesOn scan data age before s) :
    Leaves (scan.Keeps data) age (scan.Calm data) (GoesOn scan data age (before ++ machines.map (rule, ·)))
      ((machines.forM fun m => scanMachine age (scan.alertOf rule m)) s) := by
  induction machines generalizing before s with
  | nil =>
    rw [List.map_nil, List.append_nil]
    exact .inl hs
  | cons m machines ih =>
    have hround : scan.rounds data = before ++ (rule, m) :: (machines.map (rule, ·) ++ after) := hrounds
    have hleaves := scanMachine_leaves hschema hround hs
    rw [Work.forM_cons]
    rcases hrun : scanMachine age (scan.alertOf rule m) s with ⟨e | u, t⟩
    · rw [hrun] at hleaves
      rw [Work.bind_error hrun]
      exact hleaves
    · rw [hrun] at hleaves
      rw [Work.bind_ok hrun]
      rcases hleaves with ht | ⟨⟨hcommitted, hpending, hage⟩, hcalm⟩
      · have hnext : scan.rounds data = (before ++ [(rule, m)]) ++ (machines.map (rule, ·) ++ after) := by
          rw [hround, List.append_assoc, List.singleton_append]
        have hrest := ih hnext ht
        rw [List.append_assoc] at hrest
        exact hrest
      · cases machines with
        | nil => exact .inr ⟨⟨hcommitted, hpending, hage⟩, hcalm⟩
        | cons next machines =>
          have htouch : Work.touch age t = (.error .missingGreenlet, t) := if_neg hage
          have hstop : scanMachine age (scan.alertOf rule next) t = (.error .missingGreenlet, t) :=
            Work.bind_error htouch
          rw [Work.forM_cons, Work.bind_error hstop]
          exact ⟨hcommitted, hcalm⟩

theorem alertOf_new (h : rule.templateCode = "machine_new") (m : MonitoredMachine) :
    scan.alertOf rule m = scan.alert rule m (scan.newContext m) := by
  unfold Scan.alertOf
  rw [if_pos h]

theorem alertOf_lost (h : rule.templateCode = "machine_lost") {threshold : ℤ}
    (hthreshold : scan.thresholdDays rule = some threshold) (m : MonitoredMachine) :
    scan.alertOf rule m = scan.alert rule m (scan.lostContext threshold m) := by
  unfold Scan.alertOf
  rw [h, if_neg (by decide), hthreshold, Option.getD_some]

theorem selected_run (hs : Follows (scan.Keeps data) (scan.Base data done) age s)
    (query : Data → List MonitoredMachine) (alert : MonitoredMachine → Alert) :
    (do
      let machines ← Work.select false query
      let read ← Work.stamp
      machines.forM fun m => scanMachine read (alert m) : Work Data Unit) s =
    ((query s.pending).forM fun m => scanMachine age (alert m)) s := by
  have hstamp : (Work.stamp : Work Data ℕ) s = (.ok age, s) := by
    rw [← hs.age_eq]
    rfl
  rw [Work.bind_ok (hs.ready.select query), Work.bind_ok hstamp]

theorem scanRule_run (hs : Follows (scan.Keeps data) (scan.Base data done) age s) (rule : AlertRule) :
    (∃ machines, scan.pass data rule = some machines ∧
      scan.scanRule age rule s = (machines.forM fun m => scanMachine age (scan.alertOf rule m)) s) ∨
    ∃ e, scan.scanRule age rule s = (.error e, s) ∧ (scan.pass data rule = none ∨ ¬ scan.Calm data) := by
  have htouch : Work.touch age s = (.ok (), s) := if_pos hs.age_eq
  have htemplate := hs.ready.select fun data =>
    data.templates.find? fun template => decide (template.code = rule.templateCode)
  have hscope := scopeOrgsOf_ready hs.ready scan.depth rule.orgId rule.scopeMode
  rw [hs.pending.templates] at htemplate
  rw [hs.pending.organizations] at hscope
  unfold Scan.scanRule
  have hfind : (data.templates.find? fun template => decide (template.code = rule.templateCode)).isSome =
      data.templates.any fun template => decide (template.code = rule.templateCode) :=
    Bool.eq_iff_iff.mpr (List.find?_isSome.trans List.any_eq_true.symm)
  rw [Work.bind_ok htouch, Work.bind_ok htemplate, hfind]
  unfold Scan.pass
  by_cases hknown : data.templates.any (fun template => decide (template.code = rule.templateCode)) = true
  swap
  · rw [if_neg hknown, if_pos (.inl (Bool.eq_false_iff.mpr hknown))]
    exact .inl ⟨[], rfl, rfl⟩
  rw [if_pos hknown]
  have hfound : ¬ data.templates.any (fun template => decide (template.code = rule.templateCode)) = false := by
    rw [hknown]
    exact Bool.noConfusion
  cases horgs : scopeOrgs scan.depth data.organizations rule.orgId rule.scopeMode with
  | none =>
    rw [horgs] at hscope
    refine .inr ⟨_, Work.bind_error hscope, .inr fun hcalm => ?_⟩
    obtain ⟨ids, hids⟩ := exists_scopeOrgs_deep data.organizations rule.orgId rule.scopeMode
    rw [scopeOrgs_of_le hcalm.2 hids] at horgs
    cases horgs
  | some scopeIds =>
    have hids : data.scopeOf rule = scopeIds := by
      rw [Data.scopeOf, scopeOrgs_deep horgs]
      rfl
    rw [horgs] at hscope
    rw [Work.bind_ok hscope, hids]
    by_cases hnone : scopeIds = []
    · rw [if_pos (.inr hnone), if_neg (not_not.mpr hnone)]
      exact .inl ⟨[], rfl, rfl⟩
    rw [if_neg (not_or.mpr ⟨hfound, hnone⟩), if_pos hnone]
    by_cases hnew : rule.templateCode = "machine_new"
    · rw [if_pos hnew, if_pos hnew, selected_run hs]
      refine .inl ⟨_, rfl, ?_⟩
      unfold Scan.newMachines
      simp only [alertOf_new hnew]
      rw [hs.pending.machines]
    rw [if_neg hnew, if_neg hnew]
    by_cases hlost : rule.templateCode = "machine_lost"
    · rw [if_pos hlost, if_pos hlost]
      cases hthreshold : scan.thresholdDays rule with
      | none => exact .inr ⟨_, rfl, .inl rfl⟩
      | some threshold =>
        dsimp only [Option.bind_some]
        cases hcutoff : scan.lostCutoff threshold with
        | none => exact .inr ⟨_, rfl, .inl rfl⟩
        | some cutoff =>
          dsimp only
          rw [selected_run hs]
          refine .inl ⟨_, rfl, ?_⟩
          unfold Data.lostMachines
          simp only [alertOf_lost hlost hthreshold]
          rw [hs.pending.machines]
    · rw [if_neg hlost, if_neg hlost]
      exact .inl ⟨[], rfl, rfl⟩

/-- The loop over the rules has ended like this. -/
def Ends (scan : Scan) (data : Data) (age : ℕ) : Except Raised Unit × Session Data → Prop
  | (.ok _, t) => GoesOn scan data age (scan.rounds data) t ∨
      (scan.Keeps data t.committed ∧ scan.Keeps data t.pending ∧ t.age ≠ age) ∧ ¬ scan.Calm data
  | (.error _, t) => scan.Keeps data t.committed ∧
      (¬ scan.Calm data ∨ scan.Base data (scan.rounds data) t.committed.events)

/-- **The loop over the rules.** -/
theorem rules_end (hschema : Schema data)
    (hrounds : scan.rounds data = before ++ scan.roundsOf data rules) (hs : GoesOn scan data age before s) :
    Ends scan data age (rules.forM (scan.scanRule age) s) := by
  induction rules generalizing before s with
  | nil =>
    rw [Scan.roundsOf, List.append_nil] at hrounds
    refine .inl ?_
    rw [hrounds]
    exact hs
  | cons rule rules ih =>
    rw [Work.forM_cons]
    rcases scanRule_run hs.1 rule with ⟨machines, hpass, hrun⟩ | ⟨e, hrun, hwhy⟩
    · rw [Scan.roundsOf, hpass] at hrounds
      have hleaves := machines_leave hschema hrounds hs
      rw [← hrun] at hleaves
      rcases hresult : scan.scanRule age rule s with ⟨e | u, t⟩
      · rw [hresult] at hleaves
        rw [Work.bind_error hresult]
        exact ⟨hleaves.1, .inl hleaves.2⟩
      · rw [hresult] at hleaves
        rw [Work.bind_ok hresult]
        rcases hleaves with ht | ⟨⟨hcommitted, hpending, hage⟩, hcalm⟩
        · exact ih (by rw [hrounds, List.append_assoc]) ht
        · cases rules with
          | nil => exact .inr ⟨⟨hcommitted, hpending, hage⟩, hcalm⟩
          | cons next rules =>
            have htouch : Work.touch age t = (.error .missingGreenlet, t) := if_neg hage
            have hstop : scan.scanRule age next t = (.error .missingGreenlet, t) := Work.bind_error htouch
            rw [Work.forM_cons, Work.bind_error hstop]
            exact ⟨hcommitted, .inl hcalm⟩
    · rw [Work.bind_error hrun]
      refine ⟨hs.1.committed, hwhy.symm.imp_right fun hpass => ?_⟩
      rw [Scan.roundsOf, hpass, List.append_nil] at hrounds
      rw [hrounds, hs.2]
      exact hs.1.base

theorem published_eq (hsame : s.committed = s.pending) (hclean : s.dirty = false) :
    { s with dirty := false, committed := s.pending } = s := by
  obtain ⟨committed, pending, dirty, standing, age⟩ := s
  obtain rfl : committed = pending := hsame
  obtain rfl : dirty = false := hclean
  rfl

/-- **What a scan records**: events of first alerts; and where nobody is notified, one for each rule that
covers an alert. -/
theorem scanAlerts_records (hschema : Schema data) (hvalid : Constrained.valid data = true) :
    scan.Keeps data (scan.scanAlerts (.start data)).2.committed ∧
      (scan.Calm data → scan.Base data (scan.rounds data) (scan.scanAlerts (.start data)).2.committed.events) := by
  have hready : Ready (.start data) := ready_start hvalid
  have hkeeps : scan.Keeps data data := ⟨rfl, rfl, rfl, rfl, rfl, hschema.events, fun event h => .inl h⟩
  have hbase : scan.Base data [] data.events := ⟨fun _ h => h, fun _ _ h => absurd h List.not_mem_nil⟩
  have hgoes : GoesOn scan data 0 [] (.start data) := ⟨⟨hready, hvalid, rfl, hkeeps, hkeeps, hbase⟩, rfl⟩
  have hscan : scan.scanAlerts (.start data) =
      (if data.rules.filter AlertRule.enabled ≠ [] then do
        let age ← Work.stamp
        (data.rules.filter AlertRule.enabled).forM (scan.scanRule age)
        Work.commit false
        Work.commit false
      else pure () : Work Data Unit) (.start data) :=
    Work.bind_ok (hready.select fun data => data.rules.filter AlertRule.enabled)
  have hstamp : (Work.stamp : Work Data ℕ) (.start data) = (.ok 0, .start data) := rfl
  rw [hscan]
  by_cases hnone : data.rules.filter AlertRule.enabled = []
  · rw [if_neg (not_not.mpr hnone)]
    refine ⟨hkeeps, fun _ => ?_⟩
    rw [Scan.rounds, hnone]
    exact hbase
  rw [if_pos hnone, Work.bind_ok hstamp]
  have hrounds : scan.rounds data = [] ++ scan.roundsOf data (data.rules.filter AlertRule.enabled) := rfl
  have hend := rules_end hschema hrounds hgoes
  rcases hrun : (data.rules.filter AlertRule.enabled).forM (scan.scanRule 0) (.start data) with ⟨e | u, t⟩
  · rw [hrun] at hend
    rw [Work.bind_error hrun]
    exact ⟨hend.1, fun hcalm => hend.2.resolve_left (not_not.mpr hcalm)⟩
  · rw [hrun] at hend
    rw [Work.bind_ok hrun]
    rcases hend with ⟨ht, hsame⟩ | ⟨⟨hcommitted, hpending, -⟩, hcalm⟩
    · have hcommit : Work.commit false t = (.ok (), t) := by
        rw [Work.commit_active ht.ready.active ht.ready.valid]
        exact congrArg _ (published_eq hsame ht.ready.clean)
      rw [Work.bind_ok hcommit, hcommit]
      refine ⟨ht.committed, fun _ => ?_⟩
      show scan.Base data (scan.rounds data) t.committed.events
      rw [hsame]
      exact ht.base
    · refine ⟨?_, fun h => absurd h hcalm⟩
      have hfirst := Work.commit_keeps hcommitted hpending false
      rcases hcommit : Work.commit false t with ⟨e | u, v⟩
      · rw [Work.bind_error hcommit]
        rw [hcommit] at hfirst
        exact hfirst.1
      · rw [Work.bind_ok hcommit]
        rw [hcommit] at hfirst
        exact (Work.commit_keeps hfirst.1 hfirst.2 false).1

end Records

/-! ## Thresholds -/

/-- What surrounds a scan without being asked about: who would be notified, what has been sent, and how the
interpreter and the server behave. -/
structure Surroundings where
  users : List Recipient
  apiKeys : List Uuid
  prefs : List NotificationPref
  bot : Option Bool
  sent : Sent
  depth : ℕ
  faults : Uuid → Uuid → Uuid → NotifyFaults

/-- The tables in some surroundings. -/
def Data.within (data : Data) (around : Surroundings) : Data :=
  { data with
    users := around.users
    apiKeys := around.apiKeys
    prefs := around.prefs
    bot := around.bot
    sent := around.sent }

/-- A scan in some surroundings. -/
def Scan.within (scan : Scan) (around : Surroundings) : Scan :=
  { scan with depth := around.depth, faults := around.faults }

/-- The event is about a machine in the scope of the rule that is lost and has been silent for longer than
the threshold of the rule, and this threshold is in its context. -/
def Scan.InOrder (scan : Scan) (data : Data) (rule : AlertRule) (event : AlertEvent) : Prop :=
  ∃ m ∈ data.machines, ∃ threshold, scan.thresholdDays rule = some threshold ∧ event.machineId = some m.id ∧
    m.orgId ∈ data.scopeOf rule ∧ m.status = "lost" ∧
    (∀ seen ∈ m.lastSeenAt, seen < scan.now - days threshold) ∧
    lookup "threshold_days" event.context = some (.num threshold)

/-- **A rule is respected**: the events that a scan records for the rules about lost machines, whoever is
notified of them, are in order. -/
def Scan.Respects (scan : Scan) (data : Data) : Prop :=
  ∀ around : Surroundings, Constrained.valid (data.within around) = true →
    ∀ event ∈ ((scan.within around).scanAlerts (.start (data.within around))).2.committed.events,
      event ∉ data.events → ∀ rule ∈ data.rules, rule.templateCode = "machine_lost" → rule.enabled = true →
        event.ruleId = rule.id → scan.InOrder data rule event

/-- First alerts about lost machines come from the passes of rules with the threshold of the rule that they
reach. -/
def Scan.ThresholdsAgree (scan : Scan) (data : Data) : Prop :=
  ∀ before rule m after r, scan.rounds data = before ++ (rule, m) :: after →
    rule.templateCode = "machine_lost" → scan.First data before rule m r →
    scan.thresholdDays r = scan.thresholdDays rule

section Thresholds

variable {scan : Scan} {data : Data} {rule r : AlertRule} {m : MonitoredMachine}
  {before after : List (AlertRule × MonitoredMachine)}

theorem lookup_setDefaults {key : String} {value : Json} {context : List (String × Json)}
    (h : lookup key context = some value) (defaults : List (String × Json)) :
    lookup key (Triggers.setDefaults context defaults) = some value := by
  induction defaults generalizing context with
  | nil => exact h
  | cons entry defaults ih =>
    rw [Triggers.setDefaults]
    refine ih ?_
    split_ifs with hnew
    · exact h
    · have hne : entry.1 ≠ key := by
        intro hsame
        rw [hsame] at hnew
        exact hnew (List.mem_map.mpr ⟨(key, value), mem_of_lookup h, rfl⟩)
      rw [lookup_append, lookup_eq_none (by simpa using hne), Option.none_or]
      exact h

theorem lost_of_mem_pass {machines : List MonitoredMachine} (hpass : scan.pass data rule = some machines)
    (hm : m ∈ machines) (hlost : rule.templateCode = "machine_lost") :
    ∃ threshold, scan.thresholdDays rule = some threshold ∧ m.orgId ∈ data.scopeOf rule ∧ m.status = "lost" ∧
      ∀ seen ∈ m.lastSeenAt, seen < scan.now - days threshold := by
  unfold Scan.pass at hpass
  rw [if_neg (show ¬ rule.templateCode = "machine_new" by rw [hlost]; decide), if_pos hlost] at hpass
  split_ifs at hpass
  · cases hpass
    exact absurd hm List.not_mem_nil
  · obtain ⟨cutoff, hcutoff, rfl⟩ := Option.map_eq_some_iff.mp hpass
    obtain ⟨threshold, hthreshold, hlimit⟩ := Option.bind_eq_some_iff.mp hcutoff
    have hwhy := List.of_mem_filter hm
    simp only [Bool.and_eq_true, decide_eq_true_eq, Option.all_eq_true] at hwhy
    unfold Scan.lostCutoff at hlimit
    split_ifs at hlimit
    cases hlimit
    exact ⟨threshold, hthreshold, hwhy.2, hwhy.1.1, fun seen hseen => hwhy.1.2 seen hseen⟩

theorem roundsOf_within (scan : Scan) (data : Data) (around : Surroundings) (rules : List AlertRule) :
    (scan.within around).roundsOf (data.within around) rules = scan.roundsOf data rules := by
  induction rules with
  | nil => rfl
  | cons rule rules ih =>
    have hpass : (scan.within around).pass (data.within around) rule = scan.pass data rule := rfl
    rw [Scan.roundsOf, Scan.roundsOf, hpass, ih]

theorem threshold_alertOf (hlost : rule.templateCode = "machine_lost") {threshold : ℤ}
    (hthreshold : scan.thresholdDays rule = some threshold) (m : MonitoredMachine) :
    lookup "threshold_days" (scan.alertOf rule m).context = some (.num threshold) := by
  rw [alertOf_lost hlost hthreshold]
  exact lookup_setDefaults rfl _

theorem mem_rulesOf {code : String} :
    r ∈ data.rulesOf code ↔ r ∈ data.rules ∧ r.templateCode = code ∧ r.enabled = true := by
  rw [Data.rulesOf, List.mem_filter, Bool.and_eq_true, decide_eq_true_eq]

/-- Two first alerts about a machine that have the same fingerprint for a rule are one. -/
theorem first_unique {before' after' : List (AlertRule × MonitoredMachine)} {rule' : AlertRule}
    (hsplit : before ++ (rule, m) :: after = before' ++ (rule', m) :: after')
    (hcode : rule'.templateCode = rule.templateCode)
    (hfingerprint : scan.fingerprint rule'.id m.id r.id = scan.fingerprint rule.id m.id r.id)
    (hfirst : scan.First data before rule m r) (hfirst' : scan.First data before' rule' m r) :
    rule' = rule := by
  rcases List.append_eq_append_iff.mp hsplit with ⟨mid, hbefore, hafter⟩ | ⟨mid, hbefore, hafter⟩
  · cases mid with
    | nil => exact (Prod.mk.inj (List.cons.inj hafter).1).1.symm
    | cons x mid =>
      have hx : x = (rule, m) := (List.cons.inj hafter).1.symm
      refine absurd hfingerprint.symm (hfirst'.first rule ?_ hcode.symm)
      rw [hbefore, hx]
      exact List.mem_append_right _ List.mem_cons_self
  · cases mid with
    | nil => exact (Prod.mk.inj (List.cons.inj hafter).1).1
    | cons x mid =>
      have hx : x = (rule', m) := (List.cons.inj hafter).1.symm
      refine absurd hfingerprint (hfirst.first rule' ?_ hcode)
      rw [hbefore, hx]
      exact List.mem_append_right _ List.mem_cons_self

theorem rounds_within (scan : Scan) (data : Data) (around : Surroundings) :
    (scan.within around).rounds (data.within around) = scan.rounds data := roundsOf_within scan data around _

theorem Schema.within (h : Schema data) (around : Surroundings) : Schema (data.within around) :=
  ⟨h.rules, h.machines, h.organizations, h.events⟩

theorem first_of_within {around : Surroundings} {event : AlertEvent}
    (h : (scan.within around).Recorded (data.within around) event) :
    ∃ before rule m after r template recipients id, scan.rounds data = before ++ (rule, m) :: after ∧
      scan.First data before rule m r ∧ (r ∈ data.rules ∧ r.templateCode = rule.templateCode) ∧
      (∃ machines, scan.pass data rule = some machines ∧ m ∈ machines) ∧
      event = newEvent ((scan.within around).alertOf rule m) template r recipients id := by
  obtain ⟨before, rule, m, after, r, template, recipients, id, hround, hfirst, rfl⟩ := h
  rw [rounds_within] at hround
  have hfirst₀ : scan.First data before rule m r :=
    ⟨hfirst.template, hfirst.mem, hfirst.covers, hfirst.fresh, hfirst.first⟩
  obtain ⟨hr, hcode, -⟩ := mem_rulesOf.mp hfirst₀.mem
  have hmem : (rule, m) ∈ scan.rounds data := hround ▸ List.mem_append_right _ List.mem_cons_self
  exact ⟨before, rule, m, after, r, template, recipients, id, hround, hfirst₀, ⟨hr, hcode⟩,
    (pass_of_mem_roundsOf hmem).2, rfl⟩

/-- **Thresholds are respected exactly when** first alerts about lost machines come from rules with the
threshold of the rule that they reach. -/
theorem respects_iff (hschema : Schema data) : scan.Respects data ↔ scan.ThresholdsAgree data := by
  constructor
  · intro hrespects before rule m after r hround hlost hfirst
    -- nobody is notified, and the interpreter goes as deep as it takes
    obtain ⟨around, hcalm, hvalid⟩ : ∃ around : Surroundings,
        (scan.within around).Calm (data.within around) ∧ Constrained.valid (data.within around) = true :=
      ⟨⟨[], [], [], none, ⟨[], [], 0⟩, data.organizations.length + 2, fun _ _ _ => calmServer⟩,
        ⟨rfl, Nat.lt_succ_self _⟩, rfl⟩
    obtain ⟨hkeeps, hbase⟩ := scanAlerts_records (hschema.within around) hvalid
    have hmem : (rule, m) ∈ (scan.within around).rounds (data.within around) := by
      rw [rounds_within, hround]
      exact List.mem_append_right _ List.mem_cons_self
    have hcovered : ((scan.within around).alertOf rule m).CoveredBy r data.organizations :=
      coveredBy_of_mem_scopeOf hcalm.2 hfirst.covers
    obtain ⟨event, hevent, hfor⟩ := (hbase hcalm).2 rule m hmem hfirst.template r hfirst.mem hcovered
    have hnew : event ∉ data.events := fun hold => hfirst.fresh ⟨event, hold, hfor⟩
    obtain ⟨hr, hcode, henabled⟩ := mem_rulesOf.mp hfirst.mem
    obtain ⟨m₁, -, threshold, hthreshold, -, -, -, -, hcontext⟩ :=
      hrespects around hvalid event hevent hnew r hr (hcode.trans hlost) henabled hfor.1
    obtain ⟨before', rule', m', after', r', template, recipients, id, hround', hfirst', ⟨hr', hcode'⟩,
      ⟨machines, hpass, hm'⟩, rfl⟩ := first_of_within ((hkeeps.events event hevent).resolve_left hnew)
    obtain rfl : r' = r := List.inj_on_of_nodup_map hschema.rules hr' hr hfor.1
    have hm : m ∈ data.machines := by
      rw [rounds_within] at hmem
      exact mem_roundsOf hmem
    obtain rfl : m' = m := List.inj_on_of_nodup_map hschema.machines (mem_pass hpass hm') hm
      (Option.some.inj hfor.2.1)
    obtain rfl : rule' = rule :=
      first_unique (hround.symm.trans hround') (hcode'.symm.trans hcode) hfor.2.2 hfirst hfirst'
    obtain ⟨own, hown, -⟩ := lost_of_mem_pass hpass hm' hlost
    have hlookup : lookup "threshold_days" ((scan.within around).alertOf rule' m').context =
        some (.num own) := threshold_alertOf hlost hown m'
    change lookup "threshold_days" ((scan.within around).alertOf rule' m').context = _ at hcontext
    rw [hlookup] at hcontext
    have hsame : (own : ℚ) = threshold := Json.num.inj (Option.some.inj hcontext)
    rw [hown, hthreshold, Int.cast_injective hsame]
  · intro hagree around hvalid event hevent hnew rule hrule hlost henabled hid
    obtain ⟨hkeeps, -⟩ := scanAlerts_records (hschema.within around) hvalid
    obtain ⟨before, p, m, after, r, template, recipients, id, hround, hfirst, ⟨hr, hcode⟩, ⟨machines, hpass, hm⟩,
      rfl⟩ := first_of_within ((hkeeps.events event hevent).resolve_left hnew)
    obtain rfl : r = rule := List.inj_on_of_nodup_map hschema.rules hr hrule hid
    have hp : p.templateCode = "machine_lost" := hcode.symm.trans hlost
    obtain ⟨threshold, hthreshold, -, hstatus, hseen⟩ := lost_of_mem_pass hpass hm hp
    refine ⟨m, mem_pass hpass hm, threshold, (hagree _ _ _ _ _ hround hp hfirst).trans hthreshold, rfl,
      hfirst.covers, hstatus, hseen, ?_⟩
    have hcontext : lookup "threshold_days" ((scan.within around).alertOf p m).context =
        some (.num threshold) := threshold_alertOf hp hthreshold m
    exact hcontext

theorem thresholdsAgree_of_equal (threshold : Option ℤ)
    (h : ∀ rule ∈ data.rulesOf "machine_lost", scan.thresholdDays rule = threshold) :
    scan.ThresholdsAgree data := by
  intro before rule m after r hround hlost hfirst
  have hr : r ∈ data.rulesOf "machine_lost" := hlost ▸ hfirst.mem
  have hmem : (rule, m) ∈ scan.rounds data := hround ▸ List.mem_append_right _ List.mem_cons_self
  obtain ⟨hrule, henabled⟩ := List.mem_filter.mp (pass_of_mem_roundsOf hmem).1
  rw [h r hr, h rule (mem_rulesOf.mpr ⟨hrule, hlost, henabled⟩)]

end Thresholds

/-! ### A short threshold and a long one -/

/-- Two rules about the machines of one organisation, and a machine that has been silent for five days. -/
def twoThresholds : Data :=
  { twoAdmins with
    users := []
    templates := [⟨"machine_lost", true, "warning", []⟩]
    rules := [⟨1, "machine_lost", some 1, .orgOnly, true⟩, ⟨2, "machine_lost", some 1, .orgOnly, true⟩]
    machines := [⟨7, 1, "lost", some (-days 5)⟩] }

/-- A scan with these thresholds. -/
def exampleScan (first second : ℚ) : Scan where
  now := 0
  config id := [("threshold_days", .num (if id = 1 then first else second))]
  enrolledAt _ := 0
  hostname _ := "PC-01"
  defaults _ := []
  render _ _ := ("PC-01", none)
  fingerprint _ _ _ := "f"
  depth := 10
  faults _ _ _ := calmServer

def nobodyAround : Surroundings := ⟨[], [], [], none, ⟨[], [], 1⟩, 10, fun _ _ _ => calmServer⟩

theorem respects_equal_thresholds : (exampleScan 3 3).Respects twoThresholds := by
  have hschema : Schema twoThresholds := ⟨by decide, by decide, by decide, by decide⟩
  refine (respects_iff hschema).mpr (thresholdsAgree_of_equal (some 3) ?_)
  decide

/-- **Three days and thirty**: the pass of the first rule records an event for the second one, about a machine
that has been silent for five days, and with the threshold of the first one. -/
theorem long_threshold_missed : ¬ (exampleScan 3 30).Respects twoThresholds := by
  intro hrespects
  have hrun : (((exampleScan 3 30).within nobodyAround).scanAlerts
      (.start (twoThresholds.within nobodyAround))).2.committed.events.map
        (fun event => (event.ruleId, lookup "threshold_days" event.context)) =
      [(1, some (.num 3)), (2, some (.num 3))] := by
    decide +kernel
  obtain ⟨event, hevent, hpair⟩ := List.mem_map.mp
    (hrun ▸ List.mem_cons_of_mem _ List.mem_cons_self :
      ((2, some (.num 3)) : Uuid × Option Json) ∈ _)
  obtain ⟨hid, hcontext⟩ := Prod.mk.inj hpair
  obtain ⟨m, -, threshold, hthreshold, -, -, -, -, hown⟩ := hrespects nobodyAround (by decide) event hevent
    List.not_mem_nil ⟨2, "machine_lost", some 1, .orgOnly, true⟩ (by decide) rfl rfl hid
  have hthirty : (exampleScan 3 30).thresholdDays ⟨2, "machine_lost", some 1, .orgOnly, true⟩ = some 30 := by
    decide
  rw [hthirty] at hthreshold
  rw [hown, ← Option.some.inj hthreshold] at hcontext
  exact absurd (Json.num.inj (Option.some.inj hcontext)) (by norm_num)

end AssetInventory.Monitor

import AssetInventory.Fleet.Tokens
import AssetInventory.Monitor.Notifications
import AssetInventory.Server.AuditChain
import AssetInventory.Velociraptor.Allowlist

/-!
# The deletion of a machine

Eighteen tables have a key to `machines`.  The route that deletes a machine clears two of them and
empties nine, statement by statement; what it has no statement for is left to the rules of the keys.  The
rules are declared twice, in the models and in the migrations, and differently.

* `Estate`: the tables; `Estate.keys`: all keys to `machines`.
* `deleteMachine`: the route.
* `DeletedCleanly`: nothing refers to the machine, and the audit log and the tokens are otherwise as
  before.
* `deletedCleanly_iff`: a machine is deleted cleanly exactly when no key that the route has no statement
  for refuses.
* `refused_machine_stays`: a machine that has shown a used token.
-/

namespace AssetInventory.Fleet

open PyJson PyTime Orm RowStore ReadCommitted Server

/-! ## The tables -/

/-- A row of `dfir_alerts`. -/
structure DfirAlert where
  artifactPattern : String
  severity : String
  flowId : String
  clientId : Option String
  machineId : Option Uuid
  message : String
  resolved : Bool
  deriving DecidableEq

/-- A row of `dfir_investigation_messages`. -/
structure InvestigationMessage where
  investigationId : Uuid
  role : String
  content : String
  deriving DecidableEq

/-- A row of `system_devices`. -/
structure SystemDevice where
  profileId : Uuid
  machineId : Option Uuid
  name : String
  deriving DecidableEq

/-- A row of `system_profile_machines`. -/
structure SystemProfileMachine where
  profileId : Uuid
  machineId : Uuid
  note : Option String
  deriving DecidableEq

/-- A row of `system_profile_applications`. -/
structure SystemProfileApplication where
  profileId : Uuid
  machineId : Option Uuid
  name : String
  deriving DecidableEq

/-- The audit log in the order of its ids, and the next id of its sequence. -/
structure AuditTable where
  rows : List AuditLog
  next : ℕ
  sorted : rows.Pairwise fun a b => a.id < b.id
  below : ∀ row ∈ rows, row.id < next

/-- The tables with a key to `machines`, or to a row that goes with a machine. -/
structure Estate where
  fleet : Data
  audit : AuditTable
  links : List Velociraptor.VelociraptorLink
  hunts : List Velociraptor.DfirHunt
  dfirAlerts : List DfirAlert
  alertEvents : List Monitor.AlertEvent
  messages : List InvestigationMessage
  devices : List SystemDevice
  profileMachines : List SystemProfileMachine
  applications : List SystemProfileApplication

/-! ## The keys -/

/-- Where the tables were declared: `Base.metadata.create_all`, or the migrations. -/
inductive Ddl where
  | models | migrations
  deriving DecidableEq

/-- A key that only the migrations give a rule. -/
def Ddl.key {R : Type} (ddl : Ddl) (migrated : ForeignKey Uuid R) : ForeignKey Uuid R :=
  match ddl with
  | .models => .strict migrated.ref
  | .migrations => migrated

/-- `audit_log.machine_id`. -/
def auditKey : ForeignKey Uuid AuditLog := .strict AuditLog.machineId

/-- `enroll_tokens.used_by`. -/
def tokenKey : ForeignKey Uuid EnrollToken := .strict EnrollToken.usedBy

/-- `dfir_investigations.machine_id`. -/
def investigationKey : ForeignKey Uuid Investigation := .strict fun r => some r.machineId

/-- `dfir_investigation_requests.machine_id`. -/
def requestKey : ForeignKey Uuid DfirRequest := .strict fun r => some r.machineId

/-- `heartbeats.machine_id`. -/
def heartbeatKey : ForeignKey Uuid Heartbeat := .strict fun r => some r.machineId

/-- `fingerprint_drifts.machine_id`. -/
def driftKey : ForeignKey Uuid FingerprintDrift := .strict fun r => some r.machineId

/-- `velociraptor_links.machine_id`. -/
def linkKey (ddl : Ddl) : ForeignKey Uuid Velociraptor.VelociraptorLink :=
  ddl.key (.cascading fun r => some r.machineId)

/-- `machine_tags.machine_id`. -/
def tagKey : ForeignKey Uuid MachineTag := .strict fun r => some r.machineId

/-- `machine_current.machine_id`, the primary key. -/
def currentKey (ddl : Ddl) : ForeignKey Uuid Uuid := ddl.key (.cascading some)

/-- `machine_software.machine_id`. -/
def softwareKey (ddl : Ddl) : ForeignKey Uuid MachineSoftware :=
  ddl.key (.cascading fun r => some r.machineId)

/-- `machine_specs.machine_id`. -/
def specKey : ForeignKey Uuid MachineSpec := .strict fun r => some r.machineId

/-- `alert_events.machine_id`. -/
def eventKey : ForeignKey Uuid Monitor.AlertEvent :=
  .nulling Monitor.AlertEvent.machineId (fun r => { r with machineId := none }) fun _ => rfl

/-- `dfir_hunts.machine_id`. -/
def huntKey (ddl : Ddl) : ForeignKey Uuid Velociraptor.DfirHunt :=
  ddl.key (.nulling Velociraptor.DfirHunt.machineId (fun r => { r with machineId := none }) fun _ => rfl)

/-- `dfir_alerts.machine_id`. -/
def dfirAlertKey (ddl : Ddl) : ForeignKey Uuid DfirAlert :=
  ddl.key (.nulling DfirAlert.machineId (fun r => { r with machineId := none }) fun _ => rfl)

/-- `enroll_attempts.matched_machine_id`. -/
def attemptKey : ForeignKey Uuid EnrollAttempt := .strict EnrollAttempt.matchedMachineId

/-- `system_devices.machine_id`. -/
def deviceKey : ForeignKey Uuid SystemDevice := .strict SystemDevice.machineId

/-- `system_profile_machines.machine_id`. -/
def profileMachineKey (ddl : Ddl) : ForeignKey Uuid SystemProfileMachine :=
  ddl.key (.cascading fun r => some r.machineId)

/-- `system_profile_applications.machine_id`. -/
def applicationKey : ForeignKey Uuid SystemProfileApplication := .strict SystemProfileApplication.machineId

/-- The tables for which the route has a statement. -/
def Estate.handled (ddl : Ddl) (e : Estate) : List (KeyedTable Uuid) :=
  [⟨_, auditKey, e.audit.rows⟩, ⟨_, tokenKey, e.fleet.tokens.rows⟩,
    ⟨_, investigationKey, e.fleet.investigations.rows⟩, ⟨_, requestKey, e.fleet.dfirRequests.rows⟩,
    ⟨_, heartbeatKey, e.fleet.heartbeats⟩, ⟨_, driftKey, e.fleet.drifts.rows⟩,
    ⟨_, linkKey ddl, e.links⟩, ⟨_, tagKey, e.fleet.machineTags⟩, ⟨_, currentKey ddl, e.fleet.current.keys⟩,
    ⟨_, softwareKey ddl, e.fleet.software⟩, ⟨_, specKey, e.fleet.specs⟩]

/-- The tables that are left to the rules of their keys. -/
def Estate.unhandled (ddl : Ddl) (e : Estate) : List (KeyedTable Uuid) :=
  [⟨_, eventKey, e.alertEvents⟩, ⟨_, huntKey ddl, e.hunts⟩, ⟨_, dfirAlertKey ddl, e.dfirAlerts⟩,
    ⟨_, attemptKey, e.fleet.attempts.rows⟩, ⟨_, deviceKey, e.devices⟩,
    ⟨_, profileMachineKey ddl, e.profileMachines⟩, ⟨_, applicationKey, e.applications⟩]

/-- All keys to `machines`. -/
def Estate.keys (ddl : Ddl) (e : Estate) : List (KeyedTable Uuid) := e.handled ddl ++ e.unhandled ddl

/-! ## The audit log -/

section Audit

variable (sha256 : String → String)

/-- The rows without references to a machine. -/
def AuditTable.unset (p : Uuid → Bool) (t : AuditTable) : AuditTable where
  rows := t.rows.map (unsetWhere AuditLog.machineId p fun row => { row with machineId := none })
  next := t.next
  sorted := by
    refine List.pairwise_map.mpr (t.sorted.imp fun {a b} hlt => ?_)
    unfold unsetWhere
    split <;> split <;> exact hlt
  below := by
    intro row hrow
    obtain ⟨old, hold, rfl⟩ := List.mem_map.mp hrow
    unfold unsetWhere
    split <;> exact t.below old hold

/-- `append_audit`. -/
def AuditTable.append (t : AuditTable) (e : AuditEntry) (ip : Option String) : AuditTable where
  rows := t.rows ++ [
    { id := t.next
      actor := e.actor
      action := e.action
      target := e.target
      ts := e.ts
      ip := ip
      prevHash := getLastHash t.rows
      contentHash := contentHash sha256 e
      requestId := none
      machineId := none }]
  next := t.next + 1
  sorted := by
    refine List.pairwise_append.mpr ⟨t.sorted, List.pairwise_singleton _ _, fun a ha b hb => ?_⟩
    obtain rfl := List.mem_singleton.mp hb
    exact t.below a ha
  below := by
    intro row hrow
    rcases List.mem_append.mp hrow with h | h
    · exact Nat.lt_succ_of_lt (t.below row h)
    · obtain rfl := List.mem_singleton.mp h
      exact Nat.lt_succ_self _

end Audit

/-! ## The route -/

/-- The ids of one machine. -/
def only (machineId id : Uuid) : Bool := decide (id = machineId)

/-- The references of the audit log and of the tokens are cleared. -/
def Estate.unsetHistory (machineId : Uuid) (e : Estate) : Estate :=
  { e with
    audit := e.audit.unset (only machineId)
    fleet := { e.fleet with
      tokens := e.fleet.tokens.mapRows
        (unsetWhere EnrollToken.usedBy (only machineId) fun t => { t with usedBy := none }) } }

/-- The rows of a table that do not refer to the machine. -/
def without {R : Type} (machineId : Uuid) (ref : R → Option Uuid) (t : Table Uuid R) : Table Uuid R :=
  t.restrict fun _ r => !refersTo ref (only machineId) r

/-- The rows that go with the machine are deleted, and with the investigations their messages. -/
def Estate.removeDependents (machineId : Uuid) (e : Estate) : Estate :=
  { e with
    messages := removeWhere (fun m => some m.investigationId)
      (fun id => (e.fleet.investigations.get id).any (refersTo investigationKey.ref (only machineId)))
      e.messages
    links := removeWhere (linkKey .models).ref (only machineId) e.links
    fleet := { e.fleet with
      investigations := without machineId investigationKey.ref e.fleet.investigations
      dfirRequests := without machineId requestKey.ref e.fleet.dfirRequests
      heartbeats := removeWhere heartbeatKey.ref (only machineId) e.fleet.heartbeats
      drifts := without machineId driftKey.ref e.fleet.drifts
      machineTags := removeWhere tagKey.ref (only machineId) e.fleet.machineTags
      current := e.fleet.current.erase machineId
      software := removeWhere (softwareKey .models).ref (only machineId) e.fleet.software
      specs := removeWhere specKey.ref (only machineId) e.fleet.specs } }

/-- `DELETE FROM machines`; `none` is a violation of a key. -/
def Estate.deleteRow (ddl : Ddl) (machineId : Uuid) (e : Estate) : Option Estate :=
  if ∃ t ∈ e.keys ddl, t.Refuses (only machineId) then none
  else some
    { e with
      fleet := { e.fleet with
        machines := e.fleet.machines.erase machineId
        software := (softwareKey ddl).afterDelete (only machineId) e.fleet.software
        current := if ddl = .migrations then e.fleet.current.erase machineId else e.fleet.current }
      links := (linkKey ddl).afterDelete (only machineId) e.links
      alertEvents := eventKey.afterDelete (only machineId) e.alertEvents
      hunts := (huntKey ddl).afterDelete (only machineId) e.hunts
      dfirAlerts := (dfirAlertKey ddl).afterDelete (only machineId) e.dfirAlerts
      profileMachines := (profileMachineKey ddl).afterDelete (only machineId) e.profileMachines }

/-- Who deletes, when and from where, as the audit log has it. -/
structure Deletion where
  actor : String
  target : String
  ip : Option String
  time : Time

/-- The statements of the route, and its entry in the audit log. -/
def Estate.cleared (sha256 : String → String) (d : Deletion) (machineId : Uuid) (e : Estate) : Estate :=
  { (e.unsetHistory machineId).removeDependents machineId with
    audit := ((e.unsetHistory machineId).audit.append sha256
      ⟨"machine.delete", some d.target, some d.actor, d.time⟩ d.ip) }

/-- `delete_machine`, for a super administrator. -/
def deleteMachine (ddl : Ddl) (sha256 : String → String) (d : Deletion) (machineId : Uuid) (e : Estate) :
    Estate × Except HttpError Unit :=
  match e.fleet.machines.get machineId with
  | none => (e, .error ⟨404, "Máy không tồn tại"⟩)
  | some _ =>
    match (e.cleared sha256 d machineId).deleteRow ddl machineId with
    | none => (e, .error ⟨500, "Internal Server Error"⟩)
    | some after => (after, .ok ())

/-- **A machine is deleted cleanly**: no row refers to it, the tokens and the audit log have lost their
references to it and nothing else, and the log is accepted if it was. -/
structure DeletedCleanly (ddl : Ddl) (sha256 : String → String) (machineId : Uuid) (e after : Estate) :
    Prop where
  gone : after.fleet.machines.get machineId = none
  unreferenced : ∀ t ∈ after.keys ddl, ¬ t.Refers (only machineId)
  tokens : after.fleet.tokens = (e.unsetHistory machineId).fleet.tokens
  audit : ∃ entry, after.audit.rows = (e.unsetHistory machineId).audit.rows ++ [entry]
  verified : Verified sha256 e.audit.rows → Verified sha256 after.audit.rows

/-! ## The log stays accepted -/

section Log

variable {sha256 : String → String} {p : Uuid → Bool} {t : AuditTable}

theorem verified_iff : Verified sha256 t.rows ↔ Chained sha256 genesis t.rows := by
  rw [Verified, verifyChain_eq, orderById_of_sorted t.sorted]

theorem chained_unset {h : String} {rows : List AuditLog} (hchain : Chained sha256 h rows) :
    Chained sha256 h
      (rows.map (unsetWhere AuditLog.machineId p fun row => { row with machineId := none })) := by
  have hsame : ∀ row : AuditLog,
      (unsetWhere AuditLog.machineId p (fun row => { row with machineId := none }) row).prevHash =
          row.prevHash ∧
        (unsetWhere AuditLog.machineId p (fun row => { row with machineId := none }) row).contentHash =
          row.contentHash ∧
        (unsetWhere AuditLog.machineId p (fun row => { row with machineId := none }) row).entry =
          row.entry := by
    intro row
    unfold unsetWhere
    split <;> exact ⟨rfl, rfl, rfl⟩
  constructor
  · have hlinked := hchain.linked
    clear hchain
    induction rows generalizing h with
    | nil => trivial
    | cons row rows ih =>
      obtain ⟨hprev, hcontent, -⟩ := hsame row
      refine ⟨hprev.trans hlinked.1, ?_⟩
      rw [hcontent]
      exact ih hlinked.2
  · intro row hrow
    obtain ⟨old, hold, rfl⟩ := List.mem_map.mp hrow
    obtain ⟨-, hcontent, hentry⟩ := hsame old
    rw [HashOk, hcontent, hentry]
    exact hchain.hashes old hold

theorem verified_unset (h : Verified sha256 t.rows) : Verified sha256 (t.unset p).rows :=
  verified_iff.mpr (chained_unset (verified_iff.mp h))

theorem verified_append (hsha : ∀ x, sha256 x ≠ "") (h : Verified sha256 t.rows) (e : AuditEntry)
    (ip : Option String) : Verified sha256 (t.append sha256 e ip).rows := by
  have hchain := verified_iff.mp h
  have hlast : getLastHash t.rows = HashChain.tip AuditLog.contentHash genesis t.rows := by
    refine getLastHash_eq_tip t.sorted fun row hrow => ?_
    rw [hchain.hashes row hrow]
    exact hsha _
  refine verified_iff.mpr (chained_append.mpr ⟨hchain, ⟨hlast, trivial⟩, fun row hrow => ?_⟩)
  obtain rfl := List.mem_singleton.mp hrow
  rfl

end Log

/-! ## References -/

section References

variable {ddl : Ddl} {sha256 : String → String} {machineId : Uuid} {e : Estate}

theorem Ddl.refers_key {R : Type} {fk : ForeignKey Uuid R} {p : Uuid → Bool} {rows : List R} :
    (ddl.key fk).Refers p rows ↔ fk.Refers p rows := by
  cases ddl <;> exact Iff.rfl

theorem not_refers_without {R : Type} {fk : ForeignKey Uuid R} {t : Table Uuid R} :
    ¬ fk.Refers (only machineId) (without machineId fk.ref t).rows := by
  rw [without, Table.rows_restrict]
  exact ForeignKey.not_refers_removeWhere

theorem not_refers_erase {R : Type} {fk : ForeignKey Uuid Uuid} (hfk : fk.ref = some)
    (t : Table Uuid R) : ¬ fk.Refers (only machineId) (t.erase machineId).keys := by
  rintro ⟨id, hid, hrefers⟩
  obtain ⟨k, hk, honly⟩ := refersTo_eq_true.mp hrefers
  rw [hfk] at hk
  obtain rfl := Option.some.inj hk
  have hne := (List.mem_filter.mp hid).2
  exact of_decide_eq_true hne (of_decide_eq_true honly)

/-- **The statements of the route** leave no reference in the tables they are for. -/
theorem not_refers_handled (d : Deletion) :
    ∀ t ∈ (e.cleared sha256 d machineId).handled ddl, ¬ t.Refers (only machineId) := by
  have haudit : ¬ auditKey.Refers (only machineId) (e.cleared sha256 d machineId).audit.rows := by
    rintro ⟨row, hrow, hrefers⟩
    rcases List.mem_append.mp hrow with hold | hnew
    · exact auditKey.not_refers_map (fun _ => rfl) ⟨row, hold, hrefers⟩
    · obtain rfl := List.mem_singleton.mp hnew
      cases hrefers
  have htokens : ¬ tokenKey.Refers (only machineId) (e.cleared sha256 d machineId).fleet.tokens.rows := by
    change ¬ tokenKey.Refers (only machineId) (e.fleet.tokens.mapRows _).rows
    rw [Table.rows_mapRows]
    exact tokenKey.not_refers_map fun _ => rfl
  have hlinks : ¬ (linkKey ddl).Refers (only machineId) (e.cleared sha256 d machineId).links := by
    rw [linkKey, Ddl.refers_key]
    exact ForeignKey.not_refers_removeWhere
  have hsoftware : ¬ (softwareKey ddl).Refers (only machineId)
      (e.cleared sha256 d machineId).fleet.software := by
    rw [softwareKey, Ddl.refers_key]
    exact ForeignKey.not_refers_removeWhere
  have hcurrent : ¬ (currentKey ddl).Refers (only machineId)
      (e.cleared sha256 d machineId).fleet.current.keys := by
    rw [currentKey, Ddl.refers_key]
    exact not_refers_erase rfl e.fleet.current
  simp only [Estate.handled, List.forall_mem_cons]
  exact ⟨haudit, htokens, not_refers_without, not_refers_without, ForeignKey.not_refers_removeWhere,
    not_refers_without, hlinks, ForeignKey.not_refers_removeWhere, hcurrent, hsoftware,
    ForeignKey.not_refers_removeWhere, List.forall_mem_nil _⟩

theorem deleteRow_eq_none : e.deleteRow ddl machineId = none ↔
    ∃ t ∈ e.keys ddl, t.Refuses (only machineId) := by
  rw [Estate.deleteRow]
  split
  · rename_i hrefuses
    exact iff_of_true rfl hrefuses
  · rename_i hfree
    exact iff_of_false (by simp) hfree

/-- **The deletion of the row**, when no table refuses it, leaves no reference. -/
theorem not_refers_deleteRow {after : Estate} (h : e.deleteRow ddl machineId = some after)
    (hhandled : ∀ t ∈ e.handled ddl, ¬ t.Refers (only machineId)) :
    ∀ t ∈ after.keys ddl, ¬ t.Refers (only machineId) := by
  have hfree : ¬ ∃ t ∈ e.keys ddl, t.Refuses (only machineId) := by
    rw [← deleteRow_eq_none, h]
    exact Option.some_ne_none _
  rw [Estate.deleteRow, if_neg hfree] at h
  obtain rfl := Option.some.inj h
  have hrefuses : ∀ t ∈ e.unhandled ddl, ¬ t.Refuses (only machineId) := fun t ht hrefuse =>
    hfree ⟨t, List.mem_append_right _ ht, hrefuse⟩
  simp only [Estate.handled, List.forall_mem_cons] at hhandled
  simp only [Estate.unhandled, List.forall_mem_cons] at hrefuses
  obtain ⟨haudit, htokens, hinvestigations, hrequests, hheartbeats, hdrifts, hlinks, htags, hcurrent,
    hsoftware, hspecs, -⟩ := hhandled
  obtain ⟨hevents, hhunts, halerts, hattempts, hdevices, hprofiles, happlications, -⟩ := hrefuses
  have hdone : ∀ {R : Type} {fk : ForeignKey Uuid R} {rows : List R},
      ¬ fk.Refers (only machineId) rows →
        ¬ fk.Refers (only machineId) (fk.afterDelete (only machineId) rows) :=
    fun hnot => ForeignKey.not_refers_afterDelete fun hrefuse => hnot hrefuse.2
  have hcurrent' : ¬ (currentKey ddl).Refers (only machineId)
      (if ddl = .migrations then e.fleet.current.erase machineId else e.fleet.current).keys := by
    split
    · rw [currentKey, Ddl.refers_key]
      exact not_refers_erase rfl e.fleet.current
    · exact hcurrent
  refine List.forall_mem_append.mpr ⟨?_, ?_⟩
  · simp only [Estate.handled, List.forall_mem_cons]
    exact ⟨haudit, htokens, hinvestigations, hrequests, hheartbeats, hdrifts, hdone hlinks, htags,
      hcurrent', hdone hsoftware, hspecs, List.forall_mem_nil _⟩
  · simp only [Estate.unhandled, List.forall_mem_cons]
    exact ⟨ForeignKey.not_refers_afterDelete hevents, ForeignKey.not_refers_afterDelete hhunts,
      ForeignKey.not_refers_afterDelete halerts, fun hrefers => hattempts ⟨rfl, hrefers⟩,
      fun hrefers => hdevices ⟨rfl, hrefers⟩, ForeignKey.not_refers_afterDelete hprofiles,
      fun hrefers => happlications ⟨rfl, hrefers⟩, List.forall_mem_nil _⟩

/-- The row can be deleted exactly when the tables that the route has no statement for allow it. -/
theorem deleteRow_cleared_eq_none (d : Deletion) :
    (e.cleared sha256 d machineId).deleteRow ddl machineId = none ↔
      ∃ t ∈ e.unhandled ddl, t.Refuses (only machineId) := by
  rw [deleteRow_eq_none]
  constructor
  · rintro ⟨t, ht, hrefuses⟩
    rcases List.mem_append.mp ht with hhandled | hunhandled
    · exact absurd hrefuses.2 (not_refers_handled d t hhandled)
    · exact ⟨t, hunhandled, hrefuses⟩
  · rintro ⟨t, ht, hrefuses⟩
    exact ⟨t, List.mem_append_right _ ht, hrefuses⟩

end References

/-- **A machine is deleted cleanly** exactly when no table refuses that the route has no statement for. -/
theorem deletedCleanly_iff (ddl : Ddl) {sha256 : String → String} (hsha : ∀ x, sha256 x ≠ "")
    (d : Deletion) {machineId : Uuid} {e : Estate}
    (hmachine : (e.fleet.machines.get machineId).isSome = true) :
    ((deleteMachine ddl sha256 d machineId e).2 = .ok () ∧
        DeletedCleanly ddl sha256 machineId e (deleteMachine ddl sha256 d machineId e).1) ↔
      ¬ ∃ t ∈ e.unhandled ddl, t.Refuses (only machineId) := by
  obtain ⟨machine, hget⟩ := Option.isSome_iff_exists.mp hmachine
  have hfree := @deleteRow_cleared_eq_none ddl sha256 machineId e d
  rw [← hfree]
  unfold deleteMachine
  rw [hget]
  dsimp only
  cases hdelete : (e.cleared sha256 d machineId).deleteRow ddl machineId with
  | none => simp
  | some after =>
    refine iff_of_true ⟨rfl, ?_⟩ (Option.some_ne_none _)
    have hunreferenced := not_refers_deleteRow hdelete (not_refers_handled d)
    have hsame : after.fleet.machines = e.fleet.machines.erase machineId ∧
        after.fleet.tokens = (e.unsetHistory machineId).fleet.tokens ∧
        after.audit = (e.cleared sha256 d machineId).audit := by
      rw [Estate.deleteRow] at hdelete
      split at hdelete
      · cases hdelete
      · obtain rfl := Option.some.inj hdelete
        exact ⟨rfl, rfl, rfl⟩
    obtain ⟨hmachines, htokens, haudit⟩ := hsame
    refine ⟨?_, hunreferenced, htokens, ?_, fun hverified => ?_⟩
    · rw [hmachines, Table.get_erase_self]
    · rw [haudit]
      exact ⟨_, rfl⟩
    · rw [haudit]
      exact verified_append hsha (verified_unset hverified) _ _

/-- The tables when there are only machines, tokens and attempts. -/
def Estate.ofFleet (data : Data) : Estate where
  fleet := data
  audit := ⟨[], 0, List.Pairwise.nil, List.forall_mem_nil _⟩
  links := []
  hunts := []
  dfirAlerts := []
  alertEvents := []
  messages := []
  devices := []
  profileMachines := []
  applications := []

/-- The tables after some requests. -/
def Estate.after (actions : List TokenAction) : Estate :=
  .ofFleet (actions.foldl (afterAction exampleTokens) ⟨adminData, 0⟩).data

/-- A token is created, and a machine uses it. -/
def exampleFirstMachine : List TokenAction :=
  [.token (.create ⟨0, 72, none, []⟩ ⟨none, none, none⟩ (some 0)) fun _ => exampleAnswer,
    .fleet (exampleEnrollment "4C4C4544") fun _ => exampleAnswer]

/-- A super administrator deletes a machine. -/
def exampleDeletion : Deletion := ⟨"0", "2", none, 0⟩

theorem deletedCleanly_of_enrollment :
    (deleteMachine .migrations exampleSha exampleDeletion 2 (.after exampleFirstMachine)).2 = .ok () ∧
      DeletedCleanly .migrations exampleSha 2 (.after exampleFirstMachine)
        (deleteMachine .migrations exampleSha exampleDeletion 2 (.after exampleFirstMachine)).1 :=
  (deletedCleanly_iff .migrations exampleSha_ne exampleDeletion (by decide +kernel)).mpr
    (by decide +kernel)

/-- **A machine that has shown a used token** cannot be deleted. -/
theorem refused_machine_stays : ¬ ∀ (ddl : Ddl) (sha256 : String → String) (d : Deletion)
    (actions : List TokenAction) (machineId : Uuid), (∀ x, sha256 x ≠ "") →
      ((Estate.after actions).fleet.machines.get machineId).isSome = true →
        (deleteMachine ddl sha256 d machineId (.after actions)).2 = .ok () ∧
          DeletedCleanly ddl sha256 machineId (.after actions)
            (deleteMachine ddl sha256 d machineId (.after actions)).1 := by
  intro h
  have hresult := (h .migrations exampleSha exampleDeletion
    (exampleFirstMachine ++ [.fleet (exampleEnrollment "4C4C4544") fun _ => exampleAnswer]) 2 exampleSha_ne
    (by decide +kernel)).1
  have hrefused : (deleteMachine .migrations exampleSha exampleDeletion 2 (.after
      (exampleFirstMachine ++ [.fleet (exampleEnrollment "4C4C4544") fun _ => exampleAnswer]))).2.isOk =
        false := by
    decide +kernel
  rw [hresult] at hrefused
  cases hrefused

end AssetInventory.Fleet

import AssetInventory.Monitor.Alerts

/-!
# What an alert records

A session goes through many alerts.  What they leave in the session and in the database is followed by two
predicates: one that holds of all tables, whatever is rolled back, and one that holds of the events that the
session sees, as long as nothing has been rolled back.

* `Recording`: what an alert must respect of the two.
* `Follows`: the session is followed by them.
* `triggerAlert_follows`: an alert leaves such a session, in which every rule that covers it has an event; or
  it leaves one whose objects have expired; or it raises.
* Nothing expires and nothing raises where nobody is notified: this is what `calm` stands for.
-/

namespace AssetInventory.Monitor

open PyJson PyTime UnitOfWork Server

/-- The event is the one that an alert leaves for a rule. -/
def AlertEvent.IsFor (event : AlertEvent) (alert : Alert) (rule : AlertRule) : Prop :=
  event.ruleId = rule.id ∧ event.machineId = alert.machineId ∧ event.fingerprint = alert.fingerprint rule.id

def Noted (alert : Alert) (rule : AlertRule) (events : List AlertEvent) : Prop :=
  ∃ event ∈ events, event.IsFor alert rule

def Alert.CoveredBy (alert : Alert) (rule : AlertRule) (rows : List OrgRow) : Prop :=
  ∃ scopeIds, alert.scope rule rows = some (some scopeIds)

/-- An alert respects what is followed of the tables, `P`, and of the events, `B`. -/
structure Recording (P : Data → Prop) (B : List AlertEvent → Prop) (rows : List OrgRow) (alert : Alert)
    (template : AlertTemplate) (rules : List AlertRule) (calm : Prop) : Prop where
  organizations : ∀ data, P data → data.organizations = rows
  send : ∀ data f, P data → P (data.send f)
  mono : ∀ {xs ys}, xs ⊆ ys → B xs → B ys
  add : ∀ data rule recipients, P data → B data.events → rule ∈ rules →
    alert.CoveredBy rule rows → data.duplicates alert rule = [] →
    P (data.addEvent (newEvent alert template rule recipients data.nextEvent))
  users : calm → ∀ data, P data → data.users = []
  scopes : calm → ∀ rule ∈ rules, alert.scope rule rows ≠ none
  once : calm → ∀ data, P data → ∀ rule ∈ rules, (data.duplicates alert rule).length ≤ 1

/-- The session can go on, and is followed by `P` and `B`. -/
structure Follows (P : Data → Prop) (B : List AlertEvent → Prop) (age : ℕ) (s : Session Data) : Prop where
  ready : Ready s
  stored : Constrained.valid s.committed = true
  age_eq : s.age = age
  committed : P s.committed
  pending : P s.pending
  base : B s.pending.events

/-- Code has left a followed session in which `Q` holds; or nobody is calm, and it has left one that has
expired, or has raised. -/
def Leaves {α : Type} (P : Data → Prop) (age : ℕ) (calm : Prop) (Q : Session Data → Prop) :
    Except Raised α × Session Data → Prop
  | (.ok _, t) => Q t ∨ (P t.committed ∧ P t.pending ∧ t.age ≠ age) ∧ ¬ calm
  | (.error _, t) => P t.committed ∧ ¬ calm

section Alerts

variable {P : Data → Prop} {B : List AlertEvent → Prop} {alert : Alert} {template : AlertTemplate}
  {rules all : List AlertRule} {rule : AlertRule} {calm : Prop} {age : ℕ} {s t : Session Data}
  {events : List AlertEvent} {rows : List OrgRow}

theorem Noted.mono {more : List AlertEvent} (h : Noted alert rule events) (hsub : events ⊆ more) :
    Noted alert rule more := by
  obtain ⟨event, hmem, hfor⟩ := h
  exact ⟨event, hsub hmem, hfor⟩

theorem duplicates_eq_nil {data : Data} : data.duplicates alert rule = [] ↔ ¬ Noted alert rule data.events := by
  simp only [Data.duplicates, List.filter_eq_nil_iff, decide_eq_true_eq, Noted, AlertEvent.IsFor]
  rw [not_exists]
  exact forall_congr' fun event => (not_and).symm

theorem isFor_newEvent (alert : Alert) (template : AlertTemplate) (rule : AlertRule)
    (recipients : List Recipient) (id : ℕ) :
    (newEvent alert template rule recipients id).IsFor alert rule := ⟨rfl, rfl, rfl⟩

theorem recipients_of_no_users {data : Data} (h : data.users = []) (scopeIds : List Uuid) :
    data.recipients template scopeIds = [] := by
  unfold Data.recipients Data.orgAdmins Data.supers
  rw [h]
  split_ifs <;> rfl

/-- What is left of a session by an alert that has seen these rules. -/
def LeftBy (P : Data → Prop) (B : List AlertEvent → Prop) (rows : List OrgRow) (age : ℕ) (alert : Alert)
    (rules : List AlertRule) (events : List AlertEvent) (t : Session Data) : Prop :=
  Follows P B age t ∧ t.committed = t.pending ∧ events ⊆ t.pending.events ∧
    ∀ rule ∈ rules, alert.CoveredBy rule rows → Noted alert rule t.pending.events

theorem finish_nil_follows (hs : Follows P B age s) (acc : List AlertEvent) :
    Leaves P age calm (LeftBy P B rows age alert [] s.pending.events) (finish alert template age acc [] s) := by
  rw [finish_nil hs.ready.active hs.ready.valid]
  exact .inl ⟨⟨⟨hs.ready.active, rfl, hs.ready.valid⟩, hs.ready.valid, hs.age_eq, hs.pending, hs.pending,
    hs.base⟩, rfl, fun _ h => h, fun _ h => absurd h List.not_mem_nil⟩

theorem not_coveredBy_of_skips (h : alert.skips rule = true) : ¬ alert.CoveredBy rule rows := by
  rintro ⟨scopeIds, hscope⟩
  unfold Alert.skips at h
  unfold Alert.scope at hscope
  rw [Bool.and_eq_true, decide_eq_true_eq] at h
  rw [if_pos h.1] at hscope
  cases horg : rule.orgId with
  | none =>
    rw [horg] at hscope
    cases hscope
  | some orgId =>
    rw [horg] at hscope h
    obtain ⟨honly, hother⟩ := of_decide_eq_true h.2
    have hids : scopeOrgs alert.depth rows (some orgId) rule.scopeMode = some [orgId] := by
      rw [honly]
      rfl
    dsimp only at hscope
    rw [hids] at hscope
    rw [Option.map_some, if_neg (by simpa using hother)] at hscope
    cases hscope

/-- **One rule more**, which has an event if it covers the alert. -/
theorem Leaves.cons {β : Type} {seen : List AlertEvent} {x : Except Raised β × Session Data}
    (h : Leaves P age calm (LeftBy P B rows age alert rules seen) x) (hsub : events ⊆ seen)
    (hnoted : alert.CoveredBy rule rows → Noted alert rule seen) :
    Leaves P age calm (LeftBy P B rows age alert (rule :: rules) events) x := by
  rcases x with ⟨e | a, v⟩
  · exact h
  · refine h.imp_left ?_
    rintro ⟨hv, hsame, hgrown, hall⟩
    refine ⟨hv, hsame, fun e he => hgrown (hsub he), fun other hother hcovered => ?_⟩
    rcases List.mem_cons.mp hother with rfl | hother
    · exact (hnoted hcovered).mono hgrown
    · exact hall other hother hcovered

theorem finish_noted (h : Recording P B rows alert template all calm) (hs : Follows P B age s)
    (ih : ∀ {acc : List AlertEvent} {s : Session Data}, Follows P B age s →
      Leaves P age calm (LeftBy P B rows age alert rules s.pending.events)
        (finish alert template age acc rules s))
    {event : AlertEvent} {recipients : List Recipient} (hevent : event.IsFor alert rule)
    (hadd : P (s.pending.addEvent event)) (hcalm : calm → recipients = []) (acc : List AlertEvent)
    (hrule : alertRule alert template rule s =
      (deliver event recipients (alert.faults rule.id) >>= fun _ => pure (some event)) (noting s event)) :
    Leaves P age calm (LeftBy P B rows age alert (rule :: rules) s.pending.events)
      (finish alert template age acc (rule :: rules) s) := by
  have hsub : s.pending.events ⊆ (noting s event).pending.events := fun e he => List.mem_append_left _ he
  have hnoted : Noted alert rule (noting s event).pending.events :=
    ⟨event, List.mem_append_right _ List.mem_cons_self, hevent⟩
  have hfollows : Follows P B age (noting s event) :=
    ⟨hs.ready.noting event, hs.stored, hs.age_eq, hs.committed, hadd, h.mono hsub hs.base⟩
  -- the rest of the alert from a session that has the event
  have hrest : ∀ u, Follows P B age u → u.pending.events = (noting s event).pending.events →
      ∀ acc, Leaves P age calm (LeftBy P B rows age alert (rule :: rules) s.pending.events)
        (finish alert template age acc rules u) := by
    intro u hu hevents acc
    have hleaves := @ih acc u hu
    rw [hevents] at hleaves
    exact hleaves.cons hsub fun _ => hnoted
  have hdeliver := deliver_shown hfollows.ready hfollows.stored event recipients (alert.faults rule.id)
  have hidle : calm → notifyFate (alertKey event.id) event.call (recipients.map Recipient.id)
      (alert.faults rule.id) (noting s event).pending = .idle := by
    intro hc
    rw [hcalm hc]
    rfl
  revert hdeliver hidle
  cases notifyFate (alertKey event.id) event.call (recipients.map Recipient.id) (alert.faults rule.id)
      (noting s event).pending with
  | idle =>
    rintro ⟨a, hrun⟩ -
    rw [finish_cons hs.age_eq (hrule.trans (Work.bind_ok hrun))]
    exact hrest _ hfollows rfl _
  | refused =>
    intro hrun hidle
    rw [finish_error hs.age_eq (hrule.trans (Work.bind_error hrun))]
    exact ⟨hs.committed, fun hc => absurd (hidle hc) (by simp)⟩
  | dropped =>
    rintro ⟨a, hrun⟩ hidle
    have hage : (rolledBack (noting s event)).age ≠ age := by
      show s.age + 2 ≠ age
      have := hs.age_eq
      omega
    have hnot : ¬ calm := fun hc => absurd (hidle hc) (by simp)
    rw [finish_cons hs.age_eq (hrule.trans (Work.bind_ok hrun))]
    cases rules with
    | nil =>
      rw [finish_nil rfl hs.stored]
      exact .inr ⟨⟨hs.committed, hs.committed, hage⟩, hnot⟩
    | cons next others =>
      rw [finish_expired hage]
      exact ⟨hs.committed, hnot⟩
  | undone =>
    intro hrun hidle
    rw [finish_error hs.age_eq (hrule.trans (Work.bind_error hrun))]
    exact ⟨hs.committed, fun hc => absurd (hidle hc) (by simp)⟩
  | committed after =>
    rintro ⟨hrows, hafter⟩ hidle
    have hnot : ¬ calm := fun hc => absurd (hidle hc) (by simp)
    have hstored : ∀ u, Stored ((noting s event).pending.withRows event.call (recipients.map Recipient.id)) u →
        P u.committed ∧ Constrained.valid u.committed = true ∧
          u.committed.events = (noting s event).pending.events := by
      rintro u ⟨deliveries, hu⟩
      rw [hu]
      exact ⟨h.send _ _ (h.send _ _ hadd), hrows, rfl⟩
    cases after with
    | calm =>
      obtain ⟨a, u, hrun, hu, hage, hactive⟩ := hafter
      obtain ⟨hP, hvalid, hevents⟩ := hstored u hu.stored
      rw [finish_cons hs.age_eq (hrule.trans (Work.bind_ok hrun))]
      have hpending : u.pending.events = (noting s event).pending.events := by rw [hu.pending, hevents]
      refine hrest u ⟨⟨hactive, hu.clean, ?_⟩, hvalid, hage.trans hs.age_eq, hP, ?_, ?_⟩ hpending _
      · rw [hu.pending]
        exact hvalid
      · rw [hu.pending]
        exact hP
      · rw [hpending]
        exact hfollows.base
    | aborted =>
      obtain ⟨a, u, hrun, hu, hage, haborted⟩ := hafter
      obtain ⟨hP, hvalid, hevents⟩ := hstored u hu.stored
      rw [finish_cons hs.age_eq (hrule.trans (Work.bind_ok hrun)),
        finish_aborted hu.clean haborted (hage.trans hs.age_eq)]
      split_ifs with hskips
      · refine .inl ⟨⟨⟨rfl, hu.clean, hvalid⟩, hvalid, hage.trans hs.age_eq, hP, hP, ?_⟩, rfl, ?_, ?_⟩
        · show B u.committed.events
          rw [hevents]
          exact hfollows.base
        · show s.pending.events ⊆ u.committed.events
          rw [hevents]
          exact hsub
        · intro other hother hcovered
          rcases List.mem_cons.mp hother with rfl | hother
          · show Noted alert other u.committed.events
            rw [hevents]
            exact hnoted
          · exact absurd hcovered (not_coveredBy_of_skips (List.all_eq_true.mp hskips other hother))
      · exact ⟨hP, hnot⟩
    | raised =>
      obtain ⟨e, u, hrun, hu, hstanding⟩ := hafter
      rw [finish_error hs.age_eq (hrule.trans (Work.bind_error hrun))]
      exact ⟨(hstored u hu).1, hnot⟩

/-- **The loop over the rules**, and the commit behind it. -/
theorem finish_follows (h : Recording P B rows alert template all calm) (hrules : ∀ rule ∈ rules, rule ∈ all)
    (hs : Follows P B age s) (acc : List AlertEvent) :
    Leaves P age calm (LeftBy P B rows age alert rules s.pending.events)
      (finish alert template age acc rules s) := by
  induction rules generalizing acc s with
  | nil => exact finish_nil_follows hs acc
  | cons rule rules ih =>
    have hmem := hrules rule List.mem_cons_self
    have hall : ∀ {acc : List AlertEvent} {s : Session Data}, Follows P B age s →
        Leaves P age calm (LeftBy P B rows age alert rules s.pending.events)
          (finish alert template age acc rules s) :=
      fun hs => ih (fun r hr => hrules r (List.mem_cons_of_mem _ hr)) hs _
    have hrows := h.organizations _ hs.pending
    -- a rule that is passed over has an event, or does not cover the alert
    have hpassed : (alert.CoveredBy rule rows → Noted alert rule s.pending.events) →
        alertRule alert template rule s = (.ok none, s) →
        Leaves P age calm (LeftBy P B rows age alert (rule :: rules) s.pending.events)
          (finish alert template age acc (rule :: rules) s) := by
      intro hwhy hrun
      rw [finish_cons hs.age_eq hrun, Option.toList_none, List.append_nil]
      exact (@hall acc s hs).cons (List.Subset.refl _) hwhy
    have hrule := alertRule_ready hs.ready alert template rule
    unfold ruleFate at hrule
    rw [hrows] at hrule
    cases hscope : alert.scope rule rows with
    | none =>
      rw [hscope] at hrule
      obtain ⟨e, hrun⟩ := hrule
      rw [finish_error hs.age_eq hrun]
      exact ⟨hs.committed, fun hc => h.scopes hc rule hmem hscope⟩
    | some scope =>
      rw [hscope] at hrule
      cases scope with
      | none =>
        refine hpassed (fun hcovered => ?_) hrule
        obtain ⟨scopeIds, hcovers⟩ := hcovered
        rw [hscope] at hcovers
        cases hcovers
      | some scopeIds =>
        cases hduplicates : s.pending.duplicates alert rule with
        | nil =>
          rw [hduplicates] at hrule
          refine finish_noted h hs hall (isFor_newEvent alert template rule _ _) ?_ ?_ acc hrule
          · exact h.add _ rule _ hs.pending hs.base hmem ⟨scopeIds, hscope⟩ hduplicates
          · exact fun hc => recipients_of_no_users (h.users hc _ hs.pending) scopeIds
        | cons event events =>
          rw [hduplicates] at hrule
          have hnoted : Noted alert rule s.pending.events := by
            by_contra hnot
            rw [duplicates_eq_nil.mpr hnot] at hduplicates
            cases hduplicates
          cases events with
          | nil => exact hpassed (fun _ => hnoted) hrule
          | cons other events =>
            obtain ⟨e, hrun⟩ := hrule
            rw [finish_error hs.age_eq hrun]
            refine ⟨hs.committed, fun hc => ?_⟩
            have hone := h.once hc _ hs.pending rule hmem
            rw [hduplicates] at hone
            simp at hone

/-- **An alert leaves** a session in which every rule that covers it has an event, or one that has expired, or
it raises; and in a calm one only the first of these. -/
theorem triggerAlert_follows {d : Data} (h : ∀ template, d.templateOf alert.templateCode = some template →
      Recording P B rows alert template (d.rulesOf alert.templateCode) calm)
    (htemplates : s.pending.templates = d.templates) (hrules : s.pending.rules = d.rules)
    (hs : Follows P B age s) (hsame : s.committed = s.pending) :
    Leaves P age calm (fun t => Follows P B age t ∧ t.committed = t.pending ∧
        s.pending.events ⊆ t.pending.events ∧
        (d.templateOf alert.templateCode ≠ none → ∀ rule ∈ d.rulesOf alert.templateCode,
          alert.CoveredBy rule rows → Noted alert rule t.pending.events))
      (triggerAlert alert s) := by
  have htemplate := hs.ready.select fun data => data.templateOf alert.templateCode
  have hselect := hs.ready.select fun data => data.rulesOf alert.templateCode
  have hcode : s.pending.templateOf alert.templateCode = d.templateOf alert.templateCode := by
    unfold Data.templateOf
    rw [htemplates]
  have hlist : s.pending.rulesOf alert.templateCode = d.rulesOf alert.templateCode := by
    unfold Data.rulesOf
    rw [hrules]
  rw [hcode] at htemplate
  rw [hlist] at hselect
  unfold triggerAlert
  rw [Work.bind_ok htemplate]
  cases hfound : d.templateOf alert.templateCode with
  | none => exact .inl ⟨hs, hsame, fun _ h => h, fun hne => absurd rfl hne⟩
  | some template =>
    have hstamp : (Work.stamp : Work Data ℕ) s = (.ok age, s) := by
      rw [← hs.age_eq]
      rfl
    dsimp only
    rw [Work.bind_ok hselect, Work.bind_ok hstamp]
    by_cases hnone : d.rulesOf alert.templateCode = []
    · rw [if_pos hnone]
      refine .inl ⟨hs, hsame, fun _ h => h, fun _ rule hmem => ?_⟩
      rw [hnone] at hmem
      exact absurd hmem List.not_mem_nil
    · rw [if_neg hnone]
      have hleaves := finish_follows (h template hfound) (fun _ h => h) hs []
      change Leaves P age calm _ (finish alert template age [] (d.rulesOf alert.templateCode) s)
      rcases hfinish : finish alert template age [] (d.rulesOf alert.templateCode) s with ⟨e | a, v⟩
      · rw [hfinish] at hleaves
        exact hleaves
      · rw [hfinish] at hleaves
        refine hleaves.imp_left ?_
        rintro ⟨hv, hpub, hgrown, hall⟩
        exact ⟨hv, hpub, hgrown, fun _ => hall⟩

end Alerts

end AssetInventory.Monitor

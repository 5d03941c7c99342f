import AssetInventory.Monitor.Alerts

/-!
# Who is notified of an alert

An alert goes to the administrators of the organisations that its rule covers, unless they have opted out of
it, and to every super administrator, who cannot opt out.

* `WantsAlerts`, `Entitled`: who is to be notified, read off the tables.
* `mem_dedup`: the users that are left when each id is kept once.
* `mem_recipients_iff`: those who are notified are those who are entitled.
* `recipients_entitled`: what the service returns.
-/

namespace AssetInventory.Monitor

open PyJson UnitOfWork Server

/-! ## Who is entitled -/

/-- A preference lets the alerts of a template through: it is not muted, and its filter is not offered by the
template, not set, or not above the severity of the template. -/
def NotificationPref.Admits (pref : NotificationPref) (template : AlertTemplate) : Prop :=
  pref.muted = false ∧ ("severity" ∈ template.optOutControls → ∀ least ∈ given pref.minSeverity,
    severityRank least ≤ severityRank template.defaultSeverity)

/-- The preference of a user for a template, if there is one, lets its alerts through. -/
def WantsAlerts (data : Data) (template : AlertTemplate) (user : Recipient) : Prop :=
  ∀ pref ∈ data.prefs, pref.userId = user.id → pref.templateCode = template.code → pref.Admits template

/-- A user is to be notified of the alerts of a template in some organisations. -/
def Entitled (data : Data) (template : AlertTemplate) (scopeIds : List Uuid) (user : Recipient) : Prop :=
  user.isActive = true ∧ (user.role ∈ superRoles ∨
    user.role ∈ [.orgAdmin, .adminOrg] ∧ user.orgId ∈ scopeIds ∧ WantsAlerts data template user)

/-- The unique keys of the tables that are read. -/
structure UniqueKeys (data : Data) : Prop where
  users : (data.users.map Recipient.id).Nodup
  prefs : (data.prefs.map fun pref => (pref.userId, pref.templateCode)).Nodup

/-! ## Who is notified -/

section Recipients

variable {data : Data} {template : AlertTemplate} {scopeIds : List Uuid} {user : Recipient}
  {users : List Recipient} {seen : List Uuid}

theorem optsOut_some (template : AlertTemplate) (pref : NotificationPref) :
    optsOut template (some pref) = false ↔ pref.Admits template := by
  unfold optsOut NotificationPref.Admits
  rw [Bool.or_eq_false_iff, Bool.and_eq_false_iff, decide_eq_false_iff_not, ← imp_iff_not_or]
  refine and_congr_right fun _ => imp_congr_right fun _ => ?_
  cases given pref.minSeverity with
  | none => simp
  | some least => simp

theorem optsOut_iff (hkeys : UniqueKeys data) :
    optsOut template (data.prefOf template user) = false ↔ WantsAlerts data template user := by
  cases hpref : data.prefOf template user with
  | none =>
    have hnone := List.find?_eq_none.mp hpref
    simp only [decide_eq_true_eq] at hnone
    exact iff_of_true rfl fun pref hmem huser hcode => absurd ⟨huser, hcode⟩ (hnone pref hmem)
  | some pref =>
    have hfound := List.find?_some hpref
    simp only [decide_eq_true_eq] at hfound
    have hmem : pref ∈ data.prefs := List.mem_of_find?_eq_some hpref
    rw [optsOut_some]
    constructor
    · intro hadmits other hother huser hcode
      have hsame : other = pref := List.inj_on_of_nodup_map hkeys.prefs hother hmem
        (Prod.ext (huser.trans hfound.1.symm) (hcode.trans hfound.2.symm))
      rw [hsame]
      exact hadmits
    · intro hwants
      exact hwants pref hmem hfound.1 hfound.2

theorem dedup_sublist (seen : List Uuid) (users : List Recipient) : (dedup seen users).Sublist users := by
  induction users generalizing seen with
  | nil => exact .slnil
  | cons user users ih =>
    rw [dedup]
    split_ifs
    · exact (ih seen).cons user
    · exact (ih (user.id :: seen)).cons_cons user

theorem notMem_of_mem_dedup (h : user ∈ dedup seen users) : user.id ∉ seen := by
  induction users generalizing seen with
  | nil => exact absurd h List.not_mem_nil
  | cons first users ih =>
    rw [dedup] at h
    split_ifs at h with hseen
    · exact ih h
    · rcases List.mem_cons.mp h with rfl | h
      · exact hseen
      · exact fun hmem => ih h (List.mem_cons_of_mem _ hmem)

theorem nodup_dedup (seen : List Uuid) (users : List Recipient) :
    ((dedup seen users).map Recipient.id).Nodup := by
  induction users generalizing seen with
  | nil => exact List.nodup_nil
  | cons user users ih =>
    rw [dedup]
    split_ifs
    · exact ih seen
    · rw [List.map_cons, List.nodup_cons]
      refine ⟨fun hmem => ?_, ih (user.id :: seen)⟩
      obtain ⟨other, hother, hid⟩ := List.mem_map.mp hmem
      exact notMem_of_mem_dedup hother (hid ▸ List.mem_cons_self)

theorem exists_mem_dedup (hmem : user ∈ users) (hseen : user.id ∉ seen) :
    ∃ kept ∈ dedup seen users, kept.id = user.id := by
  induction users generalizing seen with
  | nil => exact absurd hmem List.not_mem_nil
  | cons first users ih =>
    rw [dedup]
    by_cases hfirst : first.id ∈ seen
    · rw [if_pos hfirst]
      rcases List.mem_cons.mp hmem with rfl | hmem
      · exact absurd hfirst hseen
      · exact ih hmem hseen
    · rw [if_neg hfirst]
      by_cases hid : first.id = user.id
      · exact ⟨first, List.mem_cons_self, hid⟩
      · have hrest : user ∈ users := (List.mem_cons.mp hmem).resolve_left fun h => hid (h ▸ rfl)
        have hnew : user.id ∉ first.id :: seen := fun h =>
          (List.mem_cons.mp h).elim (fun h => hid h.symm) hseen
        obtain ⟨kept, hkept, hsame⟩ := ih hrest hnew
        exact ⟨kept, List.mem_cons_of_mem _ hkept, hsame⟩

/-- **With one row for each id** nobody is left out. -/
theorem mem_dedup (hids : (data.users.map Recipient.id).Nodup) (husers : ∀ u ∈ users, u ∈ data.users) :
    user ∈ dedup [] users ↔ user ∈ users := by
  refine ⟨fun h => (dedup_sublist [] users).subset h, fun h => ?_⟩
  obtain ⟨kept, hkept, hid⟩ := exists_mem_dedup h List.not_mem_nil
  have hsame : kept = user :=
    List.inj_on_of_nodup_map hids (husers kept ((dedup_sublist [] users).subset hkept)) (husers user h) hid
  exact hsame ▸ hkept

/-- **Those who are notified** are those who are entitled. -/
theorem mem_recipients_iff (hkeys : UniqueKeys data) (hscope : scopeIds ≠ []) :
    user ∈ data.recipients template scopeIds ↔
      user ∈ data.users ∧ Entitled data template scopeIds user := by
  have hadmin : user ∈ data.orgAdmins scopeIds ↔ user ∈ data.users ∧
      user.isActive = true ∧ user.role ∈ [.orgAdmin, .adminOrg] ∧ user.orgId ∈ scopeIds := by
    simp only [Data.orgAdmins, List.mem_filter, Bool.and_eq_true, decide_eq_true_eq]
  have hsuper : user ∈ data.supers ↔ user ∈ data.users ∧ user.isActive = true ∧ user.role ∈ superRoles := by
    simp only [Data.supers, List.mem_filter, Bool.and_eq_true, decide_eq_true_eq]
  rw [Data.recipients, if_neg hscope, mem_dedup hkeys.users, List.mem_append, List.mem_filter, hadmin, hsuper,
    Bool.not_eq_true', optsOut_iff hkeys, Entitled]
  · tauto
  · intro u hu
    rcases List.mem_append.mp hu with hu | hu
    · exact List.mem_of_mem_filter (List.mem_of_mem_filter hu)
    · exact List.mem_of_mem_filter hu

/-- **The recipients of an alert** are the users who are entitled, each of them once. -/
theorem recipients_entitled {s : Session Data} (hs : Ready s) (hkeys : UniqueKeys s.pending)
    (template : AlertTemplate) (hscope : scopeIds ≠ []) :
    ∃ recipients, resolveRecipients template scopeIds s = (.ok recipients, s) ∧
      (recipients.map Recipient.id).Nodup ∧
      ∀ user, user ∈ recipients ↔ user ∈ s.pending.users ∧ Entitled s.pending template scopeIds user := by
  refine ⟨_, resolveRecipients_ready hs template scopeIds, ?_, fun user => mem_recipients_iff hkeys hscope⟩
  rw [Data.recipients, if_neg hscope]
  exact nodup_dedup [] _

end Recipients

/-- Two administrators and a super administrator; one of the administrators only wants errors. -/
def preferring : Data :=
  { twoAdmins with
    users := [⟨1, 1, .superAdmin, true, none⟩, ⟨2, 1, .orgAdmin, true, none⟩, ⟨3, 1, .adminOrg, true, none⟩]
    prefs := [⟨3, "machine_lost", false, some "error"⟩] }

/-- The super administrator and the administrator without a preference are notified of a warning. -/
theorem recipients_entitled_preferring :
    ∃ recipients, resolveRecipients ⟨"machine_lost", true, "warning", ["mute", "severity"]⟩ [1]
        (.start preferring) = (.ok recipients, .start preferring) ∧
      (recipients.map Recipient.id).Nodup ∧ ∀ user, user ∈ recipients ↔ user ∈ preferring.users ∧
        Entitled preferring ⟨"machine_lost", true, "warning", ["mute", "severity"]⟩ [1] user :=
  recipients_entitled (s := .start preferring) (ready_start (by decide)) ⟨by decide, by decide⟩ _ (by decide)

end AssetInventory.Monitor

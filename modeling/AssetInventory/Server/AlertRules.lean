import AssetInventory.Server.Callers
import AssetInventory.Server.OrgScope

/-!
# The administration of alert rules

A rule covers one organisation, an organisation with all below it, or all organisations.  Administrators of
an organisation may change the rules of the organisations that they see.  But a rule of the whole system has
no organisation as a rule, and the test lets every administrator pass who sees the organisation of the rule,
if it has one; and an update checks what it assigns, not what comes of it.

* `createRule`, `updateRule`, `deleteRule`: the routes; `ruleServe`: requests one after the other.
* `Covers`, `Sees`: which organisations a rule covers and which a user sees, by the two services.
* `ScopesGiven`, `LeavesOutside`: what holds of the rules, and what a request leaves alone.
* `WithinScope`: the condition on a request.
* `scope_respected_of_runs`: both hold in every run of such requests.
* `admin_takes_system_rule`: a rule of the system that an administrator of one organisation takes over.
-/

namespace AssetInventory.AlertRules

open PyJson PyTime RowStore ReadCommitted Interleaving Server

/-! ## The tables -/

/-- `recipient_mode`, which the schema allows one value. -/
inductive RecipientMode where
  | orgAdminsAndSuper
  deriving DecidableEq

/-- A JSON object. -/
abbrev Config := List (String × Json)

/-- `{**d, **e}`. -/
def merged (d e : Config) : Config :=
  (d.map fun x => (x.1, (e.lookup x.1).getD x.2)) ++ e.filter fun x => decide (x.1 ∉ d.map Prod.fst)

/-- A row of `alert_templates`. -/
structure AlertTemplate where
  code : String
  name : String
  defaultConfig : Config

/-- A row of `alert_rules`. -/
structure AlertRule where
  name : String
  templateCode : String
  orgId : Option Uuid
  scopeMode : ScopeMode
  recipientMode : RecipientMode
  config : Config
  enabled : Bool
  createdBy : Uuid
  createdAt : Time
  deriving DecidableEq

/-- The tables. -/
structure Data where
  users : Table Uuid User
  organizations : List OrgRow
  templates : List AlertTemplate
  rules : Table Uuid AlertRule

/-- What a statement writes. -/
inductive RuleWrite where
  | insert (id : Uuid) (rule : AlertRule)
  | update (id : Uuid) (rule : AlertRule)
  | delete (id : Uuid)

/-- The tables after a write. -/
def RuleWrite.apply (d : Data) : RuleWrite → Data
  | .insert id rule => { d with rules := d.rules.insert id rule }
  | .update id rule => { d with rules := d.rules.modify id fun _ => rule }
  | .delete id => { d with rules := d.rules.erase id }

instance : Applies RuleWrite Data := ⟨fun w d => w.apply d⟩

/-- The programs of the routes; requests are served one after the other. -/
abbrev Handler := Prog Data Uuid RuleWrite Unit Unit

/-! ## The routes -/

/-- What the interpreter says: how deep recursions may go, and when it has imported the module, which is
the default of `created_at`. -/
structure Interpreter where
  depth : ℕ
  importedAt : Time

structure AlertRuleCreate where
  name : String
  templateCode : String
  orgId : Option Uuid
  scopeMode : ScopeMode
  recipientMode : RecipientMode
  config : Config
  enabled : Bool

structure AlertRuleUpdate where
  name : Option String
  templateCode : Option String
  orgId : Option Uuid
  scopeMode : Option ScopeMode
  recipientMode : Option RecipientMode
  config : Option Config
  enabled : Option Bool

structure AlertRuleOut where
  id : Uuid
  templateName : Option String
  rule : AlertRule

/-- `HTTPException(status, detail)`. -/
def httpError {α : Type} (statusCode : ℕ) (detail : String) : Handler (Except HttpError α) :=
  pure (.error ⟨statusCode, detail⟩)

/-- An exception that no handler catches. -/
def serverError {α : Type} : Handler (Except HttpError α) := httpError 500 "Internal Server Error"

def getTemplate (data : Data) (code : String) : Option AlertTemplate :=
  data.templates.find? fun tpl => decide (tpl.code = code)

def ruleToOut (id : Uuid) (rule : AlertRule) : Handler (Except HttpError AlertRuleOut) := do
  let tpl ← .select fun data => getTemplate data rule.templateCode
  return .ok ⟨id, tpl.map AlertTemplate.name, rule⟩

/-- The organisation of a rule is one of the table, as its foreign key says. -/
def Data.hasOrg (data : Data) (orgId : Option Uuid) : Bool :=
  orgId.all fun id => decide (id ∈ data.organizations.map OrgRow.id)

section Routes

variable (i : Interpreter)

/-- `visible_org_ids`; too deep a recursion raises `RecursionError`. -/
def visibleOrgs (admin : User) : Handler (Option (Finset Uuid)) :=
  .select fun data => visibleOrgIds i.depth data.organizations admin

def canAccess (admin : User) (rule : AlertRule) : Handler (Option Bool) := do
  if isSuperAdmin admin then return some true
  else
    let visible ← visibleOrgs i admin
    return visible.map fun ids => rule.orgId.all fun id => decide (id ∈ ids)

def createRule (body : AlertRuleCreate) (caller : Option Uuid) :
    Handler (Except HttpError AlertRuleOut) := do
  let admin ← Callers.requireAdmin Data.users caller
  match admin with
  | .error e => return .error e
  | .ok (adminId, admin) =>
    let tpl ← .select fun data => getTemplate data body.templateCode
    match tpl with
    | none => httpError 422 "Template không tồn tại"
    | some tpl =>
      if body.scopeMode = .system ∧ isSuperAdmin admin = false then
        httpError 403 "Chỉ Super Admin tạo rule phạm vi hệ thống"
      else if body.scopeMode ≠ .system ∧ body.orgId = none then
        httpError 422 "scope_mode != system cần org_id"
      else
        let visible ← visibleOrgs i admin
        match visible with
        | none => serverError
        | some ids =>
          if body.orgId.all fun id => decide (id ∈ ids) then
            let stored ← .select fun data => data.hasOrg body.orgId
            if stored then
              let id ← .fresh
              let rule : AlertRule :=
                { name := body.name
                  templateCode := body.templateCode
                  orgId := body.orgId
                  scopeMode := body.scopeMode
                  recipientMode := body.recipientMode
                  config := merged tpl.defaultConfig body.config
                  enabled := body.enabled
                  createdBy := adminId
                  createdAt := i.importedAt }
              .insert (.insert id rule)
              .publish []
              ruleToOut id rule
            else serverError
          else httpError 403 "Không có quyền tạo rule cho tổ chức này"

/-- The assignments of `update_rule`; `tpl` is the template that the request names. -/
def AlertRuleUpdate.assign (body : AlertRuleUpdate) (rule : AlertRule) (tpl : Option AlertTemplate) :
    AlertRule :=
  { rule with
    name := body.name.getD rule.name
    enabled := body.enabled.getD rule.enabled
    templateCode := body.templateCode.getD rule.templateCode
    orgId := body.orgId.or rule.orgId
    scopeMode := body.scopeMode.getD rule.scopeMode
    recipientMode := body.recipientMode.getD rule.recipientMode
    config := body.config.getD
      (tpl.elim rule.config fun tpl => merged tpl.defaultConfig rule.config) }

/-- The template that an update names. -/
def checkTemplate : Option String → Handler (Except HttpError (Option AlertTemplate))
  | none => return .ok none
  | some code => do
    let tpl ← .select fun data => getTemplate data code
    match tpl with
    | none => httpError 422 "Template không tồn tại"
    | some tpl => return .ok (some tpl)

/-- The organisation that an update names. -/
def checkOrg (admin : User) : Option Uuid → Handler (Except HttpError Unit)
  | none => return .ok ()
  | some org => do
    let visible ← visibleOrgs i admin
    match visible with
    | none => serverError
    | some ids =>
      if org ∈ ids then return .ok () else httpError 403 "Không có quyền gán org này"

/-- The checks between the assignments: the template, the organisation and the scope that the request
names. -/
def checkUpdate (admin : User) (body : AlertRuleUpdate) :
    Handler (Except HttpError (Option AlertTemplate)) := do
  let tpl ← checkTemplate body.templateCode
  match tpl with
  | .error e => return .error e
  | .ok tpl =>
    let org ← checkOrg i admin body.orgId
    match org with
    | .error e => return .error e
    | .ok () =>
      if body.scopeMode = some .system ∧ isSuperAdmin admin = false then
        httpError 403 "Chỉ Super Admin set scope system"
      else return .ok tpl

/-- `update_rule`.  What has been assigned is stored if all checks pass. -/
def updateRule (ruleId : Uuid) (body : AlertRuleUpdate) (caller : Option Uuid) :
    Handler (Except HttpError AlertRuleOut) := do
  let admin ← Callers.requireAdmin Data.users caller
  match admin with
  | .error e => return .error e
  | .ok (_, admin) =>
    let found ← .select fun data => data.rules.get ruleId
    match found with
    | none => httpError 404 "Rule không tồn tại"
    | some rule =>
      let access ← canAccess i admin rule
      match access with
      | none => serverError
      | some false => httpError 403 "Không có quyền sửa rule này"
      | some true =>
        let checked ← checkUpdate i admin body
        match checked with
        | .error e => return .error e
        | .ok tpl =>
          let stored ← .select fun data => data.hasOrg body.orgId
          if stored then
            let _ ← .update ruleId fun _ => [.update ruleId (body.assign rule tpl)]
            .publish []
            ruleToOut ruleId (body.assign rule tpl)
          else serverError

def deleteRule (ruleId : Uuid) (caller : Option Uuid) : Handler (Except HttpError Unit) := do
  let admin ← Callers.requireAdmin Data.users caller
  match admin with
  | .error e => return .error e
  | .ok (_, admin) =>
    let found ← .select fun data => data.rules.get ruleId
    match found with
    | none => httpError 404 "Rule không tồn tại"
    | some rule =>
      let access ← canAccess i admin rule
      match access with
      | none => serverError
      | some false => httpError 403 "Không có quyền xóa rule này"
      | some true =>
        let _ ← .update ruleId fun _ => [.delete ruleId]
        .publish []
        return .ok ()

end Routes

/-- The requests that change rules. -/
inductive RuleRequest where
  | create (body : AlertRuleCreate)
  | update (ruleId : Uuid) (body : AlertRuleUpdate)
  | delete (ruleId : Uuid)

/-- The program of a request of a caller. -/
def ruleRoute (i : Interpreter) : RuleRequest × Option Uuid → Handler Unit
  | (.create body, caller) => do let _ ← createRule i body caller
  | (.update ruleId body, caller) => do let _ ← updateRule i ruleId body caller
  | (.delete ruleId, caller) => do let _ ← deleteRule i ruleId caller

/-- Requests one after the other. -/
abbrev ruleServe (i : Interpreter) :
    AtRest Data → (RuleRequest × Option Uuid) × (ℕ → Unit) → Option (AtRest Data) :=
  serveStep (ruleRoute i)

/-! ## Who covers what, and who sees what -/

/-- The rule covers the organisation: `scope_orgs` returns it. -/
def Covers (rows : List OrgRow) (rule : AlertRule) (oid : Uuid) : Prop :=
  ∃ depth out, scopeOrgs depth rows rule.orgId rule.scopeMode = some out ∧ oid ∈ out

/-- The user sees the organisation: `visible_org_ids` returns it. -/
def Sees (rows : List OrgRow) (user : User) (oid : Uuid) : Prop :=
  ∃ depth ids, visibleOrgIds depth rows user = some ids ∧ oid ∈ ids

section Scope

variable {rows : List OrgRow} {rule : AlertRule} {user : User} {oid start : Uuid}

/-- A user who is not a super administrator sees what is under the own organisation. -/
theorem sees_iff (huser : isSuperAdmin user = false) :
    Sees rows user oid ↔ Under rows user.orgId oid := by
  constructor
  · rintro ⟨depth, ids, hids, hmem⟩
    exact (mem_visibleOrgIds huser hids).mp hmem
  · intro hunder
    obtain ⟨ids, hids, hmem⟩ := exists_visibleOrgIds rows huser
    exact ⟨rows.length + 2, ids, hids _ (by omega), (hmem oid).mpr hunder⟩

theorem under_of_covers (h : Covers rows rule oid) (hscope : rule.scopeMode ≠ .system) :
    ∃ start ∈ rule.orgId, Under rows start oid := by
  obtain ⟨depth, out, hout, hmem⟩ := h
  unfold scopeOrgs at hout
  rw [if_neg hscope] at hout
  cases horg : rule.orgId with
  | none =>
    rw [horg] at hout
    cases hout
    exact absurd hmem List.not_mem_nil
  | some start =>
    refine ⟨start, rfl, ?_⟩
    cases hmode : rule.scopeMode with
    | system => exact absurd hmode hscope
    | orgOnly =>
      rw [horg, hmode] at hout
      cases hout
      rw [List.mem_singleton.mp hmem]
      exact Relation.ReflTransGen.refl
    | orgTree =>
      have htree : scopeOrgs depth rows (some start) .orgTree = some out := by
        rw [← hout, hmode, horg]
        rfl
      exact (mem_scopeOrgs htree).mp hmem

/-- **A rule with an organisation covers it**: its scope is not empty. -/
theorem covers_own (horg : rule.orgId = some start) (hscope : rule.scopeMode ≠ .system) :
    Covers rows rule start := by
  cases hmode : rule.scopeMode with
  | system => exact absurd hmode hscope
  | orgOnly => exact ⟨0, [start], by rw [horg, hmode]; rfl, List.mem_cons_self⟩
  | orgTree =>
    obtain ⟨out, hout, -, hmem⟩ := exists_scopeOrgs rows start
    refine ⟨rows.length + 2, out, ?_, (hmem start).mpr Relation.ReflTransGen.refl⟩
    rw [horg, hmode]
    exact hout _ (by omega)

theorem mem_of_covers (h : Covers rows rule oid) (hscope : rule.scopeMode = .system) :
    ∃ row ∈ rows, row.id = oid := by
  obtain ⟨depth, out, hout, hmem⟩ := h
  unfold scopeOrgs at hout
  rw [if_pos hscope] at hout
  cases hout
  exact List.mem_map.mp hmem

end Scope

/-! ## What holds of the rules -/

/-- **Every rule that is not of the system has an organisation.** -/
def ScopesGiven (data : Data) : Prop :=
  ∀ id rule, data.rules.get id = some rule → rule.scopeMode ≠ .system → rule.orgId.isSome = true

/-- The caller is an administrator, and not a super administrator. -/
def OrgAdmin (data : Data) (caller : Option Uuid) (admin : User) : Prop :=
  (∃ id, Callers.callerWith Data.users Callers.adminRoles data caller = some (id, admin)) ∧
    isSuperAdmin admin = false

/-- **What an administrator of an organisation changes or deletes** covers only organisations that the
administrator sees. -/
def LeavesOutside (caller : Option Uuid) (data data' : Data) : Prop :=
  ∀ admin, OrgAdmin data caller admin → ∀ id rule, data.rules.get id = some rule →
    data'.rules.get id ≠ some rule → ∀ oid, Covers data.organizations rule oid →
      Sees data.organizations admin oid

/-! ## The condition -/

/-- The rule is of the system and lets the administrator pass, who does not see every organisation. -/
def Oversteps (data : Data) (admin : User) (rule : AlertRule) : Prop :=
  isSuperAdmin admin = false ∧ rule.scopeMode = .system ∧
    (∀ org ∈ rule.orgId, Sees data.organizations admin org) ∧
    ∃ row ∈ data.organizations, ¬ Sees data.organizations admin row.id

/-- The checks of an update pass. -/
structure Passes (data : Data) (admin : User) (body : AlertRuleUpdate) : Prop where
  template : ∀ code ∈ body.templateCode, (getTemplate data code).isSome = true
  org : ∀ org ∈ body.orgId, Sees data.organizations admin org
  scope : body.scopeMode = some .system → isSuperAdmin admin = true

/-- What an update stores has an organisation, or is of the system. -/
def KeepsScope (body : AlertRuleUpdate) (rule : AlertRule) : Prop :=
  body.scopeMode.getD rule.scopeMode ≠ .system → (body.orgId.or rule.orgId).isSome = true

/-- **The condition on a request**: an update whose checks pass leaves the rule an organisation or the scope
of the system, and no administrator of an organisation deletes, or changes, a rule of the system that covers
more than the administrator sees. -/
def WithinScope (data : Data) : RuleRequest × Option Uuid → Prop
  | (.create _, _) => True
  | (.update ruleId body, caller) => ∀ id admin rule,
      Callers.callerWith Data.users Callers.adminRoles data caller = some (id, admin) →
      data.rules.get ruleId = some rule → Passes data admin body → KeepsScope body rule ∧
        (body.assign rule (body.templateCode.bind (getTemplate data)) = rule ∨
          ¬ Oversteps data admin rule)
  | (.delete ruleId, caller) => ∀ id admin rule,
      Callers.callerWith Data.users Callers.adminRoles data caller = some (id, admin) →
      data.rules.get ruleId = some rule → ¬ Oversteps data admin rule

/-! ## One request -/

section Request

variable {data : Data} {caller : Option Uuid} {admin : User} {id ruleId : Uuid} {rule cur : AlertRule}

/-- **Who reaches the organisation of a rule**, and does not overstep, sees what it covers. -/
theorem sees_of_covers (hadmin : isSuperAdmin admin = false)
    (haccess : ∀ org ∈ rule.orgId, Sees data.organizations admin org)
    (hwithin : ¬ Oversteps data admin rule) {oid : Uuid}
    (hcovers : Covers data.organizations rule oid) :
    Sees data.organizations admin oid := by
  by_cases hscope : rule.scopeMode = .system
  · obtain ⟨row, hrow, rfl⟩ := mem_of_covers hcovers hscope
    by_contra hnot
    exact hwithin ⟨hadmin, hscope, haccess, row, hrow, hnot⟩
  · obtain ⟨start, hstart, hunder⟩ := under_of_covers hcovers hscope
    have hfrom := (sees_iff hadmin).mp (haccess start hstart)
    exact (sees_iff hadmin).mpr (hfrom.trans hunder)

theorem OrgAdmin.sees {admin' : User} (h : OrgAdmin data caller admin')
    (hcaller : Callers.callerWith Data.users Callers.adminRoles data caller = some (id, admin))
    (haccess : isSuperAdmin admin = false → ∀ org ∈ rule.orgId, Sees data.organizations admin org)
    (hwithin : ¬ Oversteps data admin rule) {oid : Uuid}
    (hcovers : Covers data.organizations rule oid) :
    Sees data.organizations admin' oid := by
  obtain ⟨⟨id', hid'⟩, hadmin⟩ := h
  rw [hcaller] at hid'
  obtain ⟨-, rfl⟩ := Prod.mk.inj (Option.some.inj hid')
  exact sees_of_covers hadmin (haccess hadmin) hwithin hcovers

/-- A request keeps the scopes, and leaves alone what is outside. -/
def Kept (caller : Option Uuid) (data data' : Data) : Prop :=
  ScopesGiven data' ∧ LeavesOutside caller data data'

theorem kept_refl (hs : ScopesGiven data) : Kept caller data data :=
  ⟨hs, fun _ _ _ _ hrule hne => absurd hrule hne⟩

theorem kept_insert (hs : ScopesGiven data)
    (hrule : rule.scopeMode ≠ .system → rule.orgId.isSome = true) :
    Kept caller data (Applies.apply (RuleWrite.insert id rule) data) := by
  refine ⟨fun id' rule' h' => ?_, fun _ _ id' rule' h' hne => ?_⟩
  · rcases Table.get_insert_cases h' with ⟨-, rfl, -⟩ | hold
    · exact hrule
    · exact hs id' rule' hold
  · exact absurd (Table.get_insert_of_get h') hne

theorem kept_update (hs : ScopesGiven data) (hfound : data.rules.get ruleId = some rule)
    (hcur : cur.scopeMode ≠ .system → cur.orgId.isSome = true)
    (hseen : cur = rule ∨ ∀ admin, OrgAdmin data caller admin → ∀ oid,
      Covers data.organizations rule oid → Sees data.organizations admin oid) :
    Kept caller data (Applies.apply (RuleWrite.update ruleId cur) data) := by
  have hself : (data.rules.modify ruleId fun _ => cur).get ruleId = some cur := by
    rw [Table.get_modify_self, hfound]
    rfl
  refine ⟨fun id' rule' h' => ?_, fun admin hadmin id' rule' h' hne => ?_⟩
  · change (data.rules.modify ruleId fun _ => cur).get id' = some rule' at h'
    by_cases hid : id' = ruleId
    · subst hid
      obtain rfl := Option.some.inj (hself.symm.trans h')
      exact hcur
    · rw [Table.get_modify_of_ne _ _ hid] at h'
      exact hs id' rule' h'
  · change (data.rules.modify ruleId fun _ => cur).get id' ≠ some rule' at hne
    by_cases hid : id' = ruleId
    · subst hid
      obtain rfl := Option.some.inj (hfound.symm.trans h')
      rcases hseen with rfl | hseen
      · exact absurd hself hne
      · exact hseen admin hadmin
    · rw [Table.get_modify_of_ne _ _ hid] at hne
      exact absurd h' hne

theorem kept_delete (hs : ScopesGiven data) (hfound : data.rules.get ruleId = some rule)
    (hseen : ∀ admin, OrgAdmin data caller admin → ∀ oid,
      Covers data.organizations rule oid → Sees data.organizations admin oid) :
    Kept caller data (Applies.apply (RuleWrite.delete ruleId) data) := by
  refine ⟨fun id' rule' h' => ?_, fun admin hadmin id' rule' h' hne => ?_⟩
  · change (data.rules.erase ruleId).get id' = some rule' at h'
    by_cases hid : id' = ruleId
    · rw [hid, Table.get_erase_self] at h'
      cases h'
    · rw [Table.get_erase_of_ne _ hid] at h'
      exact hs id' rule' h'
  · change (data.rules.erase ruleId).get id' ≠ some rule' at hne
    by_cases hid : id' = ruleId
    · subst hid
      obtain rfl := Option.some.inj (hfound.symm.trans h')
      exact hseen admin hadmin
    · rw [Table.get_erase_of_ne _ hid] at hne
      exact absurd h' hne

end Request

/-! ## The routes, alone -/

section Routes

variable (i : Interpreter) {α : Type} {I : Data → Prop} {Q : α → Alone Data RuleWrite Unit → Prop}
  {x : Alone Data RuleWrite Unit} {caller : Option Uuid}

/-- Who passes `_can_access` is a super administrator, or sees the organisation of the rule. -/
theorem keeps_canAccess {f : Option Bool → Handler α} (admin : User) (rule : AlertRule)
    (hnone : (f none).CommitsKeep I Q x) (hfalse : (f (some false)).CommitsKeep I Q x)
    (htrue : (isSuperAdmin admin = false → ∀ org ∈ rule.orgId, Sees x.view.organizations admin org) →
      (f (some true)).CommitsKeep I Q x) : (canAccess i admin rule >>= f).CommitsKeep I Q x := by
  refine Prog.CommitsKeep.bind ?_
  unfold canAccess
  split_ifs with hsuper
  · exact keeps_pure (htrue fun h => by rw [hsuper] at h; cases h)
  · refine keeps_select _ (keeps_pure ?_)
    cases hids : visibleOrgIds i.depth x.view.organizations admin with
    | none => exact hnone
    | some ids =>
      rw [Option.map_some]
      cases haccess : rule.orgId.all fun id => decide (id ∈ ids) with
      | false => exact hfalse
      | true =>
        refine htrue fun _ org horg => ⟨i.depth, ids, hids, ?_⟩
        rw [Option.mem_def.mp horg, Option.all_some] at haccess
        exact of_decide_eq_true haccess

variable {f : Except HttpError (Option AlertTemplate) → Handler α}

theorem keeps_checkTemplate (code : Option String) (herror : ∀ e, (f (.error e)).CommitsKeep I Q x)
    (hok : (∀ c ∈ code, (getTemplate x.view c).isSome = true) →
      (f (.ok (code.bind (getTemplate x.view)))).CommitsKeep I Q x) :
    (checkTemplate code >>= f).CommitsKeep I Q x := by
  cases code with
  | none => exact hok fun c hc => by cases hc
  | some code =>
    refine Prog.CommitsKeep.bind (keeps_select _ ?_)
    rw [Option.bind_some] at hok
    cases htpl : getTemplate x.view code with
    | none => exact keeps_pure (herror _)
    | some tpl =>
      rw [htpl] at hok
      refine keeps_pure (hok fun c hc => ?_)
      rw [← Option.some.inj hc, htpl]
      rfl

theorem keeps_checkOrg {f : Except HttpError Unit → Handler α} (admin : User) (org : Option Uuid)
    (herror : ∀ e, (f (.error e)).CommitsKeep I Q x)
    (hok : (∀ o ∈ org, Sees x.view.organizations admin o) → (f (.ok ())).CommitsKeep I Q x) :
    (checkOrg i admin org >>= f).CommitsKeep I Q x := by
  cases org with
  | none => exact hok fun o ho => by cases ho
  | some org =>
    refine Prog.CommitsKeep.bind (keeps_select _ ?_)
    cases hids : visibleOrgIds i.depth x.view.organizations admin with
    | none => exact keeps_pure (herror _)
    | some ids =>
      dsimp only
      split_ifs with hmem
      · refine keeps_pure (hok fun o ho => ⟨i.depth, ids, hids, ?_⟩)
        rw [← Option.some.inj ho]
        exact hmem
      · exact keeps_pure (herror _)

theorem keeps_checkUpdate (admin : User)
    (body : AlertRuleUpdate) (herror : ∀ e, (f (.error e)).CommitsKeep I Q x)
    (hok : Passes x.view admin body →
      (f (.ok (body.templateCode.bind (getTemplate x.view)))).CommitsKeep I Q x) :
    (checkUpdate i admin body >>= f).CommitsKeep I Q x := by
  refine Prog.CommitsKeep.bind (keeps_checkTemplate _ (fun e => keeps_pure (herror e)) fun htpl => ?_)
  refine keeps_checkOrg i admin _ (fun e => keeps_pure (herror e)) fun horg => ?_
  dsimp only
  split_ifs with hscope
  · exact keeps_pure (herror _)
  · refine keeps_pure (hok ⟨htpl, horg, fun hsystem => ?_⟩)
    by_contra hsuper
    exact hscope ⟨hsystem, Bool.eq_false_iff.mpr hsuper⟩

/-! ### The requests -/

variable {data : Data} {drawn : ℕ} {answers : ℕ → Unit}

/-- A request before its first statement. -/
abbrev atStart (data : Data) (drawn : ℕ) (answers : ℕ → Unit) : Alone Data RuleWrite Unit :=
  ⟨data, [], drawn, answers⟩

theorem keeps_createRule (body : AlertRuleCreate) (hs : ScopesGiven data) :
    (createRule i body caller).CommitsKeep (Kept caller data) (fun _ _ => True)
      (atStart data drawn answers) := by
  refine Callers.keeps_requireRole _ _ _ _ (fun _ => keeps_pure trivial) fun adminId admin _ => ?_
  refine keeps_select _ ?_
  split
  · exact keeps_pure trivial
  · split_ifs with hsystem horg
    · exact keeps_pure trivial
    · exact keeps_pure trivial
    · refine keeps_select _ ?_
      split
      · exact keeps_pure trivial
      · split_ifs with hsees
        · refine keeps_select _ ?_
          split_ifs with hstored
          · refine keeps_fresh (keeps_insert _ (keeps_publish _ ?_ (keeps_select _ (keeps_pure trivial))))
            refine kept_insert hs fun hscope => ?_
            cases hid : body.orgId with
            | none => exact absurd ⟨hscope, hid⟩ horg
            | some org => rfl
          · exact keeps_pure trivial
        · exact keeps_pure trivial

theorem keeps_updateRule (ruleId : Uuid) (body : AlertRuleUpdate) (hs : ScopesGiven data)
    (hwithin : WithinScope data (.update ruleId body, caller)) :
    (updateRule i ruleId body caller).CommitsKeep (Kept caller data) (fun _ _ => True)
      (atStart data drawn answers) := by
  refine Callers.keeps_requireRole _ _ _ _ (fun _ => keeps_pure trivial) fun adminId admin hadmin => ?_
  refine keeps_select _ ?_
  split
  · exact keeps_pure trivial
  · rename_i rule hfound
    refine keeps_canAccess i admin rule (keeps_pure trivial) (keeps_pure trivial) fun haccess => ?_
    refine keeps_checkUpdate i admin body (fun _ => keeps_pure trivial) fun hpasses => ?_
    refine keeps_select _ ?_
    split_ifs with hstored
    · refine keeps_update _ _ (keeps_publish _ ?_ (keeps_select _ (keeps_pure trivial)))
      obtain ⟨hkeeps, hsame⟩ := hwithin adminId admin rule hadmin hfound hpasses
      refine kept_update hs hfound hkeeps (hsame.imp_right fun hover _ horg _ => ?_)
      exact horg.sees hadmin haccess hover
    · exact keeps_pure trivial

theorem keeps_deleteRule (ruleId : Uuid) (hs : ScopesGiven data)
    (hwithin : WithinScope data (.delete ruleId, caller)) :
    (deleteRule i ruleId caller).CommitsKeep (Kept caller data) (fun _ _ => True)
      (atStart data drawn answers) := by
  refine Callers.keeps_requireRole _ _ _ _ (fun _ => keeps_pure trivial) fun adminId admin hadmin => ?_
  refine keeps_select _ ?_
  split
  · exact keeps_pure trivial
  · rename_i rule hfound
    refine keeps_canAccess i admin rule (keeps_pure trivial) (keeps_pure trivial) fun haccess => ?_
    refine keeps_update _ _ (keeps_publish _ (kept_delete hs hfound fun _ horg _ => ?_)
      (keeps_pure trivial))
    exact horg.sees hadmin haccess (hwithin adminId admin rule hadmin hfound)

/-- **Every request** within its scope. -/
theorem keeps_ruleRoute (request : RuleRequest × Option Uuid) (hs : ScopesGiven data)
    (hwithin : WithinScope data request) :
    (ruleRoute i request).CommitsKeep (Kept request.2 data) (fun _ _ => True)
      (atStart data drawn answers) := by
  obtain ⟨request, caller⟩ := request
  cases request with
  | create body => exact Prog.CommitsKeep.bind ((keeps_createRule i body hs).mono fun _ _ _ => trivial)
  | update ruleId body =>
    exact Prog.CommitsKeep.bind ((keeps_updateRule i ruleId body hs hwithin).mono fun _ _ _ => trivial)
  | delete ruleId =>
    exact Prog.CommitsKeep.bind ((keeps_deleteRule i ruleId hs hwithin).mono fun _ _ _ => trivial)

end Routes

/-! ## Runs -/

/-- **One request.** -/
theorem kept_of_serve (i : Interpreter) {s t : AtRest Data}
    {action : (RuleRequest × Option Uuid) × (ℕ → Unit)} (hs : ScopesGiven s.data)
    (hwithin : WithinScope s.data action.1) (hstep : ruleServe i s action = some t) :
    Kept action.1.2 s.data t.data := by
  obtain ⟨request, answers⟩ := action
  obtain rfl := Option.some.inj hstep
  exact (keeps_ruleRoute i request hs hwithin).data (kept_refl hs)

/-- **The scope of alert rules is respected** in every run of requests that are within theirs: every rule
that is not of the system has an organisation, and the next such request changes or deletes no rule of an
organisation that its administrator does not see. -/
theorem scope_respected_of_runs (i : Interpreter) {s t : AtRest Data} (hs : ScopesGiven s.data)
    (hrun : Runs (ruleServe i) (fun s action => WithinScope s.data action.1) s t) :
    ScopesGiven t.data ∧ ∀ action u, WithinScope t.data action.1 → ruleServe i t action = some u →
      LeavesOutside action.1.2 t.data u.data := by
  have ht : ScopesGiven t.data :=
    hrun.invariant (I := fun s => ScopesGiven s.data)
      (fun _ _ _ hs hwithin hstep => (kept_of_serve i hs hwithin hstep).1) hs
  exact ⟨ht, fun action u hwithin hstep => (kept_of_serve i ht hwithin hstep).2⟩

/-- Two organisations, an administrator of the second one, and a super administrator. -/
def exampleData : Data where
  users := (Table.empty.insert 0 { exampleUser with role := .superAdmin }).insert 1
    { exampleUser with role := .orgAdmin, orgId := 2 }
  organizations := [⟨1, none⟩, ⟨2, some 1⟩]
  templates := [⟨"offline", "Mất kết nối", []⟩]
  rules := .empty

def exampleInterpreter : Interpreter := ⟨10, 0⟩

/-- The super administrator makes a rule of the system. -/
def exampleSystemRule : RuleRequest × Option Uuid :=
  (.create ⟨"Tất cả", "offline", none, .system, .orgAdminsAndSuper, [], true⟩, some 0)

/-- The administrator of the second organisation makes a rule for it. -/
def exampleOwnRule : RuleRequest × Option Uuid :=
  (.create ⟨"Đơn vị", "offline", some 2, .orgTree, .orgAdminsAndSuper, [], true⟩, some 1)

/-- The administrator of the second organisation gives a rule the scope of one organisation. -/
def exampleTakeOver : RuleRequest × Option Uuid :=
  (.update 0 ⟨none, none, none, some .orgOnly, none, none, none⟩, some 1)

theorem scopesGiven_exampleData : ScopesGiven exampleData := by
  intro id rule h
  cases h

/-- **An administrator takes a rule of the system over**: it covers nothing any more. -/
theorem admin_takes_system_rule : ¬ ∀ (i : Interpreter) (s t : AtRest Data), ScopesGiven s.data →
    Runs (ruleServe i) anyAction s t →
      ScopesGiven t.data ∧ ∀ action u, ruleServe i t action = some u →
        LeavesOutside action.1.2 t.data u.data := by
  intro h
  obtain ⟨t, hrun, ht⟩ := exists_runs_of_exec (G := anyAction) (ruleServe exampleInterpreter)
    (⟨exampleData, 0⟩ : AtRest Data)
    [(exampleSystemRule, fun _ => ()), (exampleTakeOver, fun _ => ())]
    (p := fun t : AtRest Data => (t.data.rules.get 0).any fun rule : AlertRule =>
      decide (rule.scopeMode = ScopeMode.orgOnly) && rule.orgId.isNone) (by decide +kernel)
  obtain ⟨rule, hrule, hlost⟩ := (Option.any_eq_true _ _).mp ht
  obtain ⟨hscope, horg⟩ := Bool.and_eq_true_iff.mp hlost
  have hgiven := (h exampleInterpreter ⟨exampleData, 0⟩ t scopesGiven_exampleData hrun).1 0 rule hrule
  rw [of_decide_eq_true hscope] at hgiven
  rw [Option.isNone_iff_eq_none.mp horg] at hgiven
  exact absurd (hgiven (by decide)) (by decide)

theorem scope_respected_of_creation : ∃ t, Runs (ruleServe exampleInterpreter)
      (fun s action => WithinScope s.data action.1) (⟨exampleData, 0⟩ : AtRest Data) t ∧
    (t.data.rules.get 0).isSome = true ∧ (t.data.rules.get 1).isSome = true ∧
    ScopesGiven t.data ∧ ∀ action u, WithinScope t.data action.1 →
      ruleServe exampleInterpreter t action = some u → LeavesOutside action.1.2 t.data u.data := by
  have hstart : Runs (ruleServe exampleInterpreter) (fun s action => WithinScope s.data action.1)
      (⟨exampleData, 0⟩ : AtRest Data) ⟨exampleData, 0⟩ := Runs.refl _
  have hrun := (hstart.tail (exampleSystemRule, fun _ => ()) trivial rfl).tail
    (exampleOwnRule, fun _ => ()) trivial rfl
  exact ⟨_, hrun, by decide +kernel, by decide +kernel,
    scope_respected_of_runs exampleInterpreter scopesGiven_exampleData hrun⟩

end AssetInventory.AlertRules

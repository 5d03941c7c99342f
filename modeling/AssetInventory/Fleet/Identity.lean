import AssetInventory.Fleet.Writes

/-!
# One machine for one id

Machines are looked up by organisation and id, and the lookup raises an exception when there are several.
An enrollment inserts a machine with the id of its fingerprint after it has looked for it.  An import looks
for the id that its payload names, but inserts the machine with the id of the payload's fingerprint, which
may be empty; and a change of a fingerprint that is approved gives a machine a new id without a look at the
others.

* `identityOf`: the organisation and the id of a machine; `UniqueIds`: no two machines have the same.
* `FindsNoOther`: the condition on a request, that the id it is about to write has no other owner.
* `uniqueIds_of_served`: from an empty inventory, requests that meet it leave every id to one machine.
* `imports_share_id`: two imports without a fingerprint.
-/

namespace AssetInventory.Fleet

open PyJson PyTime Orm RowStore ReadCommitted Server Interleaving

/-- The organisation and the id of a machine. -/
def identityOf (data : Data) (machine : Uuid) : Option (Uuid × String) :=
  (data.machines.get machine).map fun m => (m.orgId, m.machineUuid)

/-- No two machines of an organisation have the same id. -/
def UniqueIds (data : Data) : Prop :=
  ∀ j k x, identityOf data j = some x → identityOf data k = some x → j = k

section Lookup

variable {data : Data} {orgId : Uuid} {machineUuid : String}

theorem mem_machinesWith {machine : Uuid} {m : Machine} :
    (machine, m) ∈ machinesWith data orgId machineUuid ↔
      data.machines.get machine = some m ∧ m.orgId = orgId ∧ m.machineUuid = machineUuid := by
  rw [machinesWith, Table.mem_rowsWhere, decide_eq_true_iff]

theorem identityOf_eq_some {machine : Uuid} : identityOf data machine = some (orgId, machineUuid) ↔
    ∃ m, (machine, m) ∈ machinesWith data orgId machineUuid := by
  rw [identityOf, Option.map_eq_some_iff]
  refine exists_congr fun m => ?_
  rw [mem_machinesWith, Prod.mk.injEq]

theorem identityOf_ne_of_machinesWith (h : machinesWith data orgId machineUuid = []) (machine : Uuid) :
    identityOf data machine ≠ some (orgId, machineUuid) := by
  intro hid
  obtain ⟨m, hm⟩ := identityOf_eq_some.mp hid
  rw [h] at hm
  exact List.not_mem_nil hm

/-- **The lookup raises no exception** when ids are unique. -/
theorem exactMatch_ne_none (h : UniqueIds data) (orgId : Uuid) (machineUuid : String) :
    exactMatch data orgId machineUuid ≠ none := by
  have hsame : ∀ x ∈ machinesWith data orgId machineUuid, ∀ y ∈ machinesWith data orgId machineUuid,
      x.1 = y.1 := fun x hx y hy =>
    h x.1 y.1 (orgId, machineUuid) (identityOf_eq_some.mpr ⟨x.2, hx⟩)
      (identityOf_eq_some.mpr ⟨y.2, hy⟩)
  have hnodup : ((machinesWith data orgId machineUuid).map Prod.fst).Nodup :=
    data.machines.nodup_rowsWhere _
  rw [exactMatch]
  match hrows : machinesWith data orgId machineUuid with
  | [] => exact fun h => by cases h
  | [x] => exact fun h => by cases h
  | x :: y :: rows =>
    rw [hrows] at hsame hnodup
    have hxy := hsame x List.mem_cons_self y (List.mem_cons_of_mem _ List.mem_cons_self)
    rw [List.map_cons, List.map_cons, List.nodup_cons] at hnodup
    exact absurd (hxy ▸ List.mem_cons_self) hnodup.1

theorem machinesWith_of_exactMatch (h : exactMatch data orgId machineUuid = some none) :
    machinesWith data orgId machineUuid = [] := by
  rw [exactMatch] at h
  match hrows : machinesWith data orgId machineUuid with
  | [] => rfl
  | [x] =>
    rw [hrows] at h
    cases h
  | x :: y :: rows =>
    rw [hrows] at h
    cases h

end Lookup

/-- **The condition on a request**: an import without a fingerprint that finds no machine under the id that
its payload names finds none under the id of an empty fingerprint either, and a change of a fingerprint is
approved only when no other machine has the new id. -/
def FindsNoOther (c : FleetSettings) (data : Data) : FleetRequest → Prop
  | .importOffline body caller => ∀ admin ∈ adminOf data caller,
      c.importing.verifySignature body.payload body.signatureB64 body.publicKeyPem = true →
      payloadFingerprint body.payload = some [] →
      machinesWith data (importOrg c.importing data admin body.payload)
        (payloadMachineUuid c.importing body.payload) = [] →
      ∀ weighted ∈ computeWeightedId c.identification [],
        machinesWith data (importOrg c.importing data admin body.payload) weighted = []
  | .resolveDrift driftId true caller => ∀ admin ∈ adminOf data caller,
      ∀ drift ∈ data.drifts.get driftId, drift.status = .pending →
      ∀ m ∈ data.machines.get drift.machineId, m.orgId ∈ visibleOrgs data admin →
      ∀ weighted ∈ computeWeightedId c.identification drift.newFingerprint,
        ∀ x ∈ machinesWith data m.orgId weighted, x.1 = drift.machineId
  | _ => True

/-! ## Writes -/

/-- A write that changes no identity. -/
def KeepsIdentity : DataWrite → Prop
  | .machine _ base cur => cur.orgId = base.orgId ∧ cur.machineUuid = base.machineUuid
  | .newMachine _ _ => False
  | _ => True

section Writes

variable {d : Data} {w : DataWrite}

theorem KeepsIdentity.of_aside (w : DataWrite) (h : w.Aside) : KeepsIdentity w := by
  cases w <;> trivial

theorem KeepsIdentity.of_apart (w : DataWrite) (h : w.Apart) : KeepsIdentity w :=
  forall_apart of_aside w h

theorem identityOf_machine_self {id : Uuid} {stored : Machine} (base cur : Machine)
    (h : d.machines.get id = some stored) :
    identityOf (Applies.apply (DataWrite.machine id base cur) d) id =
      some (pick base.orgId cur.orgId stored.orgId,
        pick base.machineUuid cur.machineUuid stored.machineUuid) := by
  rw [identityOf, machines_machine, Table.get_modify_self, h]
  rfl

variable {base cur : Machine}

theorem identityOf_machine_of_ne {id j : Uuid} (hj : j ≠ id) :
    identityOf (Applies.apply (DataWrite.machine id base cur) d) j = identityOf d j := by
  rw [identityOf, machines_machine, Table.get_modify_of_ne _ _ hj]
  rfl

theorem KeepsIdentity.identityOf_apply (hw : KeepsIdentity w) (j : Uuid) :
    identityOf (Applies.apply w d) j = identityOf d j := by
  cases w with
  | machine id base cur =>
    by_cases hj : j = id
    · subst hj
      cases hrow : d.machines.get j with
      | none =>
        rw [identityOf, machines_machine, Table.get_modify_self, hrow, identityOf, hrow]
        rfl
      | some stored =>
        rw [identityOf_machine_self _ _ hrow, hw.1, hw.2, pick_same, pick_same, identityOf, hrow]
        rfl
    · exact identityOf_machine_of_ne hj
  | newMachine id row => exact hw.elim
  | _ => rfl

theorem KeepsIdentity.uniqueIds (hw : KeepsIdentity w) (d : Data) (h : UniqueIds d) :
    UniqueIds (Applies.apply w d) := by
  intro j k x hj hk
  rw [hw.identityOf_apply] at hj hk
  exact h j k x hj hk

theorem uniqueIds_machine_same {id : Uuid} (h : UniqueIds d)
    (horg : cur.orgId = base.orgId) (huuid : cur.machineUuid = base.machineUuid) :
    UniqueIds (Applies.apply (DataWrite.machine id base cur) d) :=
  KeepsIdentity.uniqueIds (w := .machine id base cur) ⟨horg, huuid⟩ d h

theorem uniqueIds_newMachine {id : Uuid} {row : Machine} (h : UniqueIds d)
    (hnone : machinesWith d row.orgId row.machineUuid = []) :
    UniqueIds (Applies.apply (DataWrite.newMachine id row) d) := by
  have hcases : ∀ j x, identityOf (Applies.apply (DataWrite.newMachine id row) d) j = some x →
      (j = id ∧ x = (row.orgId, row.machineUuid)) ∨ identityOf d j = some x := by
    intro j x hj
    rw [identityOf, machines_newMachine, Option.map_eq_some_iff] at hj
    obtain ⟨m, hm, rfl⟩ := hj
    rcases Table.get_insert_cases hm with ⟨rfl, rfl, -⟩ | hold
    · exact Or.inl ⟨rfl, rfl⟩
    · exact Or.inr (by rw [identityOf, hold, Option.map_some])
  intro j k x hj hk
  rcases hcases j x hj with ⟨rfl, rfl⟩ | hj'
  · rcases hcases k _ hk with ⟨rfl, -⟩ | hk'
    · rfl
    · exact absurd hk' (identityOf_ne_of_machinesWith hnone k)
  · rcases hcases k x hk with ⟨rfl, rfl⟩ | hk'
    · exact absurd hj' (identityOf_ne_of_machinesWith hnone j)
    · exact h j k x hj' hk'

theorem uniqueIds_machine {id : Uuid} (h : UniqueIds d) (hbase : d.machines.get id = some base)
    (hother : ∀ x ∈ machinesWith d cur.orgId cur.machineUuid, x.1 = id) :
    UniqueIds (Applies.apply (DataWrite.machine id base cur) d) := by
  have hself := identityOf_machine_self base cur hbase
  rw [pick_base, pick_base] at hself
  have hclash : ∀ j, j ≠ id → identityOf d j ≠ some (cur.orgId, cur.machineUuid) := by
    intro j hj hid
    obtain ⟨m, hm⟩ := identityOf_eq_some.mp hid
    exact hj (hother _ hm)
  intro j k x hj hk
  by_cases hj' : j = id
  · by_cases hk' : k = id
    · rw [hj', hk']
    · rw [hj', hself] at hj
      rw [identityOf_machine_of_ne hk', ← hj] at hk
      exact absurd hk (hclash k hk')
  · rw [identityOf_machine_of_ne hj'] at hj
    by_cases hk' : k = id
    · rw [hk', hself] at hk
      rw [← hk] at hj
      exact absurd hj (hclash j hj')
    · rw [identityOf_machine_of_ne hk'] at hk
      exact h j k x hj hk

end Writes

/-! ## The routes -/

section Routes

variable {α : Type} {x : Alone Data DataWrite Env} {Q : α → Alone Data DataWrite Env → Prop}

theorem keeps_of_keepsIdentity {B : List Note → Prop} {C : α → Prop} {m : Handler α}
    (hm : m.Only KeepsIdentity B C) (hx : UniqueIds x.view) :
    m.CommitsKeep UniqueIds (fun a y => C a ∧ UniqueIds y.view) x :=
  hm.commitsKeep_view (fun _ hw d => hw.uniqueIds d) hx

theorem keeps_flushMachine {base cur : Machine} {f : Unit → Handler α} {id : Uuid} (hx : UniqueIds x.view)
    (hwrite : UniqueIds (Applies.apply (DataWrite.machine id base cur) x.view))
    (h : ∀ y : Alone Data DataWrite Env, UniqueIds y.view → (f ()).CommitsKeep UniqueIds Q y) :
    (flushMachine id base cur >>= f).CommitsKeep UniqueIds Q x := by
  rw [flushMachine]
  split
  · exact h x hx
  · refine h _ ?_
    rw [Alone.view_write]
    exact hwrite

theorem alone_requireAdmin (caller : Option Uuid) (x : Alone Data DataWrite Env) :
    ∃ r, (requireAdmin caller).alone x = (r, x) ∧ r.toOption.map Prod.snd = adminOf x.view caller := by
  cases caller with
  | none => exact ⟨_, rfl, rfl⟩
  | some id =>
    rw [requireAdmin, getCurrentUser, alone_bind, alone_select, adminOf, Option.bind_some]
    cases x.view.users.get id with
    | none => exact ⟨_, rfl, rfl⟩
    | some user =>
      rw [Option.filter_some, Option.filter_some]
      cases user.isActive with
      | false => exact ⟨_, rfl, rfl⟩
      | true =>
        cases hchange : user.mustChangePassword with
        | true =>
          simp only [if_pos, hchange]
          exact ⟨_, rfl, rfl⟩
        | false =>
          simp only [if_pos, hchange]
          by_cases hrole : user.role ∈ adminRoles
          · exact ⟨.ok (id, user), by simp [hrole], by simp [hrole, Except.toOption]⟩
          · exact ⟨.error ⟨403, "Không có quyền"⟩, by simp [hrole, httpError], by simp [hrole, Except.toOption]⟩

theorem keeps_requireAdmin {I : Data → Prop} {f : Except HttpError (Uuid × User) → Handler α}
    (caller : Option Uuid) (herror : ∀ e, (f (.error e)).CommitsKeep I Q x)
    (hok : ∀ id admin, adminOf x.view caller = some admin →
      (f (.ok (id, admin))).CommitsKeep I Q x) : (requireAdmin caller >>= f).CommitsKeep I Q x := by
  cases caller with
  | none => exact herror _
  | some id =>
    have hadmin : ∀ user, (x.view.users.get id).filter User.isActive = some user →
        user.mustChangePassword = false → user.role ∈ adminRoles →
        adminOf x.view (some id) = some user := by
      intro user huser hchange hrole
      obtain ⟨hget, hactive⟩ := Option.filter_eq_some_iff.mp huser
      rw [adminOf, Option.bind_some]
      refine Option.filter_eq_some_iff.mpr ⟨hget, ?_⟩
      rw [hactive, hchange, decide_eq_true hrole]
      rfl
    refine Prog.CommitsKeep.bind (Prog.CommitsKeep.bind (keeps_select _ ?_))
    cases huser : (x.view.users.get id).filter User.isActive with
    | none => exact herror _
    | some user =>
      dsimp only
      split
      · exact herror _
      · rename_i hchange
        refine keeps_pure ?_
        dsimp only
        split
        · rename_i hrole
          exact hok id user (hadmin user huser (Bool.eq_false_iff.mpr hchange) hrole)
        · exact herror _

section Enroll

variable (I : Identification)

/-- The lookup of a machine that enrolls: when it finds none, no machine has the id. -/
theorem keeps_findMachine {J : Data → Prop}
    {Q : Option (Option (Uuid × Machine)) → Alone Data DataWrite Env → Prop} (orgId : Uuid)
    (weighted : String) (fingerprint : Fingerprint)
    (h : ∀ found answers, (found = some none → machinesWith x.view orgId weighted = []) →
      Q found { x with answers := answers }) :
    (findMachine I orgId weighted fingerprint).CommitsKeep J Q x := by
  refine keeps_select _ ?_
  match hfound : exactMatch x.view orgId weighted with
  | none => exact h none x.answers fun h => by cases h
  | some (some y) => exact h (some (some y)) x.answers fun h => by cases h
  | some none => exact h _ _ fun _ => machinesWith_of_exactMatch hfound

/-- What goes on after `perform_enroll` changes no identity. -/
def Enrollment.SameIdentity (e : Enrollment) : Prop :=
  KeepsIdentity (.machine e.machineId e.base e.machine)

variable {weighted machineUuid : String}

theorem keeps_insertMachine (hx : UniqueIds x.view) (tokenId : Uuid) (token : EnrollToken)
    (hostname : Option String) (fingerprint : Fingerprint) (time : Time)
    (hnone : machinesWith x.view token.orgId weighted = []) :
    (insertMachine tokenId token hostname fingerprint weighted time).CommitsKeep UniqueIds
      (fun r y => UniqueIds y.view ∧ ∀ e, r = .ok e → e.SameIdentity) x := by
  refine keeps_select _ ?_
  cases assignedUser x.view token.email with
  | none => exact keeps_pure ⟨hx, fun e h => by cases h⟩
  | some user =>
    refine keeps_fresh (keeps_insert _ ?_)
    refine Prog.CommitsKeep.bind ((keeps_of_keepsIdentity
      (only_applyTokenTags KeepsIdentity.of_aside x.drawn token) (B := fun _ => False) ?_).mono ?_)
    · rw [Alone.view_write]
      exact uniqueIds_newMachine hx hnone
    · refine fun _ y hy => keeps_pure ⟨hy.2, ?_⟩
      rintro e ⟨⟩
      exact ⟨rfl, rfl⟩

theorem keeps_enrollMachine (hx : UniqueIds x.view) (tokenId : Uuid) (token : EnrollToken)
    (hostname : Option String) (fingerprint : Fingerprint) (time : Time) :
    (enrollMachine I tokenId token hostname fingerprint time).CommitsKeep UniqueIds
      (fun r y => UniqueIds y.view ∧ ∀ e, r = .ok e → e.SameIdentity) x := by
  rw [enrollMachine]
  cases computeWeightedId I fingerprint with
  | none => exact keeps_pure ⟨hx, fun e h => by cases h⟩
  | some weighted =>
    refine Prog.CommitsKeep.bind (keeps_findMachine I token.orgId weighted fingerprint
      fun found answers hfound => ?_)
    match found with
    | none => exact keeps_pure ⟨hx, fun e h => by cases h⟩
    | some none =>
      exact keeps_insertMachine (x := { x with answers := answers }) hx tokenId token hostname
        fingerprint time (hfound rfl)
    | some (some (id, row)) =>
      refine (keeps_of_keepsIdentity (x := { x with answers := answers }) (B := fun _ => False)
        (only_updateMachine I KeepsIdentity.of_apart id row tokenId token hostname fingerprint weighted
          time ⟨rfl, rfl⟩) hx).mono fun r y hr => ⟨hr.2, fun e he => ?_⟩
      obtain ⟨-, -, -, -, hmachine, hbase⟩ := hr.1 e he
      rcases hbase with hbase | hbase
      · rw [Enrollment.SameIdentity, hbase, hmachine]
        exact ⟨rfl, rfl⟩
      · rw [Enrollment.SameIdentity, hbase]
        exact ⟨rfl, rfl⟩

theorem keeps_performEnroll (hx : UniqueIds x.view) (tokenStr : String) (hostname : Option String)
    (fingerprint : Fingerprint) (ip : Option String) :
    (performEnroll I tokenStr hostname fingerprint ip).CommitsKeep UniqueIds
      (fun r y => UniqueIds y.view ∧ ∀ e, r = .ok e → e.SameIdentity) x := by
  have hrefuse : ∀ refusal row detail (y : Alone Data DataWrite Env), UniqueIds y.view →
      (refuse I tokenStr refusal row hostname fingerprint ip detail :
        Handler (Except HttpError Enrollment)).CommitsKeep UniqueIds
          (fun r y => UniqueIds y.view ∧ ∀ e, r = .ok e → e.SameIdentity) y := by
    intro refusal row detail y hy
    refine (keeps_of_keepsIdentity (B := fun _ => True) (only_refuse I KeepsIdentity.of_apart trivial
      tokenStr refusal row hostname fingerprint ip detail) hy).mono ?_
    exact fun r z hr => ⟨hr.2, fun e he => absurd he (hr.1 e)⟩
  refine keeps_select _ ?_
  match scalarOneOrNone (x.view.tokens.rowsWhere fun t =>
      decide (t.tokenHash = I.sha256 tokenStr)) with
  | none => exact keeps_pure ⟨hx, fun e h => by cases h⟩
  | some none => exact hrefuse _ _ _ _ hx
  | some (some (tokenId, token)) =>
    refine keeps_answer _ ?_
    generalize hy : ({ x with answers := fun i => x.answers (i + 1) } : Alone Data DataWrite Env) = y
    have hy : UniqueIds y.view := hy ▸ hx
    split
    · exact hrefuse _ _ _ _ hy
    · split
      · exact hrefuse _ _ _ _ hy
      · split
        · exact Prog.CommitsKeep.bind ((keeps_of_keepsIdentity (B := fun _ => False)
            (only_flushToken trivial) hy).mono fun _ z hz => hrefuse _ _ _ _ hz.2)
        · exact keeps_enrollMachine I hy tokenId token hostname fingerprint _

/-- **An enrollment** leaves every id to one machine. -/
theorem keeps_enroll (hx : UniqueIds x.view) (body : EnrollRequest) :
    (enroll I body).CommitsKeep UniqueIds (fun _ _ => True) x := by
  refine Prog.CommitsKeep.bind ((keeps_performEnroll I hx _ _ _ _).mono fun r y hr => ?_)
  cases r with
  | error e => exact keeps_pure trivial
  | ok e =>
    refine (keeps_of_keepsIdentity (B := fun _ => True) (C := fun _ => True) ?_ hr.1).mono
      fun _ _ _ => trivial
    refine only_answer _ fun certificate => ?_
    cases certificate with
    | none => exact only_pure trivial
    | some pem =>
      refine only_answer _ fun time => ?_
      refine (only_flushMachine (hr.2 e rfl)).bind fun _ _ => ?_
      refine (only_flushToken trivial).bind fun _ _ => ?_
      exact only_publish trivial (only_pure trivial)

end Enroll

/-- **A decision about a fingerprint** leaves every id to one machine if no other machine has the new
one. -/
theorem keeps_resolveDrift (c : FleetSettings) (hx : UniqueIds x.view) (driftId : Uuid)
    (approved : Bool) (caller : Option Uuid)
    (hother : FindsNoOther c x.view (.resolveDrift driftId approved caller)) :
    (resolveDrift c.identification driftId approved caller).CommitsKeep UniqueIds
      (fun _ _ => True) x := by
  refine keeps_requireAdmin caller (fun _ => keeps_pure trivial) fun adminId admin hadmin => ?_
  refine keeps_select _ ?_
  cases hdrift : x.view.drifts.get driftId with
  | none => exact keeps_pure trivial
  | some drift =>
    refine keeps_select _ ?_
    cases hmachine : x.view.machines.get drift.machineId with
    | none => exact keeps_pure trivial
    | some machine =>
      refine keeps_select _ ?_
      dsimp only
      split
      · exact keeps_pure trivial
      · rename_i hvisible
        split
        · exact keeps_pure trivial
        · rename_i hpending
          cases hcur : machine.resolved c.identification drift approved with
          | none => exact keeps_pure trivial
          | some cur =>
            refine keeps_answer _ ?_
            have hwrite : UniqueIds
                (Applies.apply (DataWrite.machine drift.machineId machine cur) x.view) := by
              cases approved with
              | false =>
                obtain rfl := Option.some.inj hcur
                exact uniqueIds_machine_same hx rfl rfl
              | true =>
                obtain ⟨weighted, hweighted, rfl⟩ := Option.map_eq_some_iff.mp hcur
                exact uniqueIds_machine hx hmachine (hother admin hadmin drift hdrift
                  (not_not.mp hpending) machine hmachine (not_not.mp hvisible) weighted hweighted)
            refine keeps_flushMachine hx hwrite fun y hy => ?_
            refine (keeps_of_keepsIdentity (B := fun _ => True) (C := fun _ => True) ?_ hy).mono
              fun _ _ _ => trivial
            exact only_update_one _ (fun _ => trivial) fun _ =>
              only_publish trivial (only_select _ fun _ => only_pure trivial)

section Import

variable (I : Identification) (J : Importing)

/-- The lookup of an import: when it finds none, no machine has the id that it will insert. -/
theorem keeps_findImported {machineUuid weighted : String} {J : Data → Prop}
    {Q : Option (Option (Uuid × Machine)) → Alone Data DataWrite Env → Prop} {orgId : Uuid} {fingerprint : Fingerprint}
    (hempty : fingerprint = [] → machinesWith x.view orgId machineUuid = [] →
      machinesWith x.view orgId weighted = []) (hnamed : machineUuid = "" → fingerprint ≠ [])
    (h : ∀ found answers, (found = some none → machinesWith x.view orgId weighted = []) →
      Q found { x with answers := answers }) :
    (findImported I orgId machineUuid fingerprint weighted).CommitsKeep J Q x := by
  refine keeps_select _ ?_
  match hfound : if machineUuid = "" then some none else exactMatch x.view orgId machineUuid with
  | none => exact h none x.answers fun h => by cases h
  | some (some y) => exact h (some (some y)) x.answers fun h => by cases h
  | some none =>
    dsimp only
    split
    · rename_i hfingerprint
      rw [if_neg fun hm => hnamed hm hfingerprint] at hfound
      exact h _ _ fun _ => hempty hfingerprint (machinesWith_of_exactMatch hfound)
    · exact keeps_findMachine I orgId weighted fingerprint h

theorem keeps_finishImport {base : Machine} {x : Alone Data DataWrite Env} (hx : UniqueIds x.view) (id : Uuid)
    {machine : Machine} (hbase : KeepsIdentity (.machine id base machine)) (isNew : Bool)
    (payload : List (String × Json)) (collectedAt : Time) :
    (finishImport J id base machine isNew payload collectedAt).CommitsKeep UniqueIds
      (fun _ _ => True) x := by
  refine (keeps_of_keepsIdentity (B := fun _ => True) (only_finishImport J KeepsIdentity.of_apart
    trivial id base machine isNew payload collectedAt fun cur hcur => ?_) hx).mono fun _ _ _ => trivial
  obtain ⟨_, _, rfl⟩ := Machine.importedFrom_eq hcur
  exact hbase

/-- **An import** leaves every id to one machine if no machine has the id that it inserts. -/
theorem keeps_importPayload {machineUuid : String} (hx : UniqueIds x.view) (admin : User)
    (payload : List (String × Json)) {fingerprint : Fingerprint} (hostname : Option String)
    (hempty : fingerprint = [] → machinesWith x.view (importOrg J x.view admin payload) machineUuid = [] →
      ∀ weighted ∈ computeWeightedId I [],
        machinesWith x.view (importOrg J x.view admin payload) weighted = [])
    (hnamed : machineUuid = "" → fingerprint ≠ []) :
    (importPayload I J admin payload machineUuid fingerprint hostname).CommitsKeep UniqueIds
      (fun _ _ => True) x := by
  refine keeps_select _ ?_
  cases hweighted : computeWeightedId I fingerprint with
  | none => exact keeps_pure trivial
  | some weighted =>
    refine Prog.CommitsKeep.bind (keeps_findImported I ?_ hnamed fun found answers hfound => ?_)
    · rintro rfl hnone
      exact hempty rfl hnone weighted hweighted
    match found with
    | none => exact keeps_pure trivial
    | some none =>
      refine keeps_answer _ (Prog.CommitsKeep.bind (keeps_fresh (keeps_insert _ ?_)))
      refine Prog.CommitsKeep.bind ((keeps_of_keepsIdentity (B := fun _ => False)
        (only_ensureClassification (fun _ => KeepsIdentity.of_aside _ trivial) _ none "bmnn") ?_).mono fun _ y hy => ?_)
      · rw [Alone.view_write]
        exact uniqueIds_newMachine hx (hfound rfl)
      · exact keeps_finishImport J hy.2 _ ⟨rfl, rfl⟩ true payload _
    | some (some (id, row)) =>
      refine keeps_answer _ (keeps_flushMachine hx ?_ fun y hy => ?_)
      · exact uniqueIds_machine_same hx (by rfl) (by rfl)
      · refine Prog.CommitsKeep.bind ((keeps_of_keepsIdentity (B := fun _ => False)
          (only_ensureClassification (fun _ => KeepsIdentity.of_aside _ trivial) _ none "bmnn") hy).mono fun _ z hz => ?_)
        exact keeps_finishImport J hz.2 id ⟨rfl, rfl⟩ false payload _

end Import

/-- **A request** that meets the condition leaves every id to one machine. -/
theorem keeps_fleetRoute (c : FleetSettings) (hx : UniqueIds x.view) (request : FleetRequest)
    (hother : FindsNoOther c x.view request) :
    (fleetRoute c request).CommitsKeep UniqueIds (fun _ _ => True) x := by
  have hkeeps : ∀ {β : Type} {m : Handler β},
      m.Only KeepsIdentity (fun _ => True) (fun _ => True) →
        (m >>= fun _ => pure ()).CommitsKeep UniqueIds (fun _ _ => True) x := fun hm =>
    Prog.CommitsKeep.bind ((keeps_of_keepsIdentity hm hx).mono fun _ _ _ => keeps_pure trivial)
  have hthen : ∀ {β : Type} {m : Handler β}, m.CommitsKeep UniqueIds (fun _ _ => True) x →
      (m >>= fun _ => pure ()).CommitsKeep UniqueIds (fun _ _ => True) x := fun hm =>
    Prog.CommitsKeep.bind (hm.mono fun _ _ _ => keeps_pure trivial)
  cases request with
  | enroll body => exact hthen (keeps_enroll c.identification hx body)
  | heartbeat machineCn =>
    exact hkeeps (only_heartbeat KeepsIdentity.of_apart trivial (fun _ _ _ => ⟨rfl, rfl⟩) machineCn)
  | sweepOffline =>
    exact (keeps_of_keepsIdentity (B := fun _ => True) (only_sweepOffline trivial
      (fun _ _ => ⟨rfl, rfl⟩) _) hx).mono fun _ _ _ => trivial
  | approve machineId note caller =>
    exact hkeeps (only_approveMachine _ machineId note caller trivial fun _ _ _ => ⟨rfl, rfl⟩)
  | reject machineId note caller =>
    exact hkeeps (only_rejectMachine machineId note caller trivial fun _ => ⟨rfl, rfl⟩)
  | lifecycle machineId lifecycle note caller =>
    exact hkeeps (only_updateLifecycle machineId lifecycle note caller trivial fun _ _ => ⟨rfl, rfl⟩)
  | importOffline body caller =>
    refine hthen (keeps_requireAdmin caller (fun _ => keeps_pure trivial) fun id admin hadmin => ?_)
    dsimp -zeta only
    split
    · exact keeps_pure trivial
    · rename_i hsignature
      extract_lets machineUuid
      split
      · rename_i fingerprint hostname hfingerprint _
        split
        · exact keeps_pure trivial
        · rename_i hthere
          refine keeps_importPayload _ _ hx admin body.payload hostname ?_ fun hm hf => hthere ⟨hm, hf⟩
          rintro rfl hnone
          exact hother admin hadmin (by simpa using hsignature) hfingerprint hnone
      · exact keeps_pure trivial
  | resolveDrift driftId approved caller =>
    exact hthen (keeps_resolveDrift c hx driftId approved caller hother)

end Routes

/-! ## Runs -/

/-- Requests one after the other. -/
abbrev fleetServe (c : FleetSettings) :
    AtRest Data → FleetRequest × (ℕ → Env) → Option (AtRest Data) :=
  serveStep (fleetRoute c)

/-- **One machine for one id**: from an empty inventory, requests that meet the condition leave every id to
one machine, and no lookup raises an exception. -/
theorem uniqueIds_of_served (c : FleetSettings) {s t : AtRest Data} (hs : s.data.machines.keys = [])
    (hrun : Runs (fleetServe c) (fun s action => FindsNoOther c s.data action.1) s t) :
    UniqueIds t.data ∧ ∀ orgId machineUuid, exactMatch t.data orgId machineUuid ≠ none := by
  have hstart : UniqueIds s.data := by
    intro j k x hj
    obtain ⟨m, hm, -⟩ := Option.map_eq_some_iff.mp hj
    have hmem := Table.mem_keys_of_get hm
    rw [hs] at hmem
    exact absurd hmem List.not_mem_nil
  have hend : UniqueIds t.data := invariant_of_served
    (fun _ request _ hs hother => keeps_fleetRoute c hs request hother) hstart hrun
  exact ⟨hend, exactMatch_ne_none hend⟩

/-! Two imports without a fingerprint. -/

/-- The administrator imports a file that names a machine. -/
def exampleImport (machineUuid : String) (fingerprint : Fingerprint) : FleetRequest :=
  .importOffline ⟨[("machine_uuid", .str machineUuid), ("fingerprint", .obj fingerprint)], "", ""⟩
    (some 0)

/-- **Two machines get one id**: their files name them and say nothing of their components, so both are
inserted with the id of an empty fingerprint. -/
theorem imports_share_id : ¬ ∀ (c : FleetSettings) (s : AtRest Data), s.data.machines.keys = [] →
    ∀ t, Runs (fleetServe c) anyAction s t →
      UniqueIds t.data ∧ ∀ orgId machineUuid, exactMatch t.data orgId machineUuid ≠ none := by
  intro h
  obtain ⟨t, hrun, ht⟩ := exists_runs_of_exec (G := anyAction) (fleetServe exampleFleet)
    ⟨adminData, 0⟩
    [(exampleImport "4C4C4544" [], fun _ => exampleAnswer),
      (exampleImport "03000200" [], fun _ => exampleAnswer)]
    (p := fun t => (exactMatch t.data 0 "\x7b\x7d").isNone) (by decide +kernel)
  exact (h exampleFleet ⟨adminData, 0⟩ rfl t hrun).2 0 _ (Option.isNone_iff_eq_none.mp ht)

theorem uniqueIds_of_enrollment :
    ∃ t, Runs (fleetServe exampleFleet) (fun s action => FindsNoOther exampleFleet s.data action.1)
        ⟨{ adminData with tokens := Table.empty.insert 0 exampleToken }, 0⟩ t ∧
      identityOf t.data 0 = some (0, "4C4C4544") ∧ UniqueIds t.data := by
  have hrun : Runs (fleetServe exampleFleet)
      (fun s action => FindsNoOther exampleFleet s.data action.1)
      ⟨{ adminData with tokens := Table.empty.insert 0 exampleToken }, 0⟩ _ :=
    (Runs.single (exampleEnrollment "4C4C4544", fun _ => exampleAnswer) trivial rfl).tail
      (exampleImport "" [("smbios_uuid", .str "4C4C4544")], fun _ => exampleAnswer)
      (fun _ _ _ hempty => absurd hempty (by decide)) rfl
  exact ⟨_, hrun, by decide +kernel, (uniqueIds_of_served exampleFleet rfl hrun).1⟩

end AssetInventory.Fleet

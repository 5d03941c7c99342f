import AssetInventory.Server.Users

/-!
# The last super administrator

A super administrator cannot demote, lock or delete itself, so a request leaves at least the one that made
it.  But whoever makes a request is looked up when the request starts, and need not be a super
administrator any more when it commits.

* `StillSuper`: the condition on a commit, that who takes the rank away from an active super administrator
  is one itself.
* `hasActiveSuper_of_runs`: there is an active super administrator in every run whose commits meet the
  condition.
* `supers_demote_each_other`: two super administrators who demote each other.
* `superAdmins_are_appointed`: whoever has the rank goes back to the first, by commits of those who had it.
-/

namespace AssetInventory.Server

open PyJson Orm RowStore ReadCommitted Interleaving

/-- The user is an active super administrator. -/
def activeSuper (data : Data) (id : Uuid) : Bool := (data.users.get id).any User.isActiveSuper

/-- There is an active super administrator. -/
def HasActiveSuper (data : Data) : Prop := ∃ id, activeSuper data id = true

/-- A user stops to be an active super administrator only by request of one. -/
def Note.ByActiveSuper (before after : Data) : Note → Prop
  | .administered admin target =>
    activeSuper before target = true → activeSuper after target = false →
      activeSuper before admin = true
  | _ => True

instance (before after : Data) : DecidablePred (Note.ByActiveSuper before after)
  | .administered _ _ => by unfold Note.ByActiveSuper; infer_instance
  | .exchanged _ => isTrue trivial
  | .replayed _ _ => isTrue trivial
  | .loggedIn _ _ _ => isTrue trivial
  | .confirmed _ _ => isTrue trivial

/-- **The condition on a commit**: whoever takes the rank away from an active super administrator is one
itself when the commit happens. -/
def StillSuper (s : Store Data RowKey Note) (pending : List DataWrite) (note : List Note) : Prop :=
  ∀ n ∈ note, n.ByActiveSuper s.data (s.view pending)

instance (s : Store Data RowKey Note) (pending : List DataWrite) (note : List Note) :
    Decidable (StillSuper s pending note) := by
  unfold StillSuper
  infer_instance

/-! ## What a request writes -/

/-- The writes of `admin` to `target`: nobody takes the rank away from itself. -/
def Administers (admin target : Uuid) : DataWrite → Prop
  | .user id _ cur => id = target ∧ (target = admin → cur.isActiveSuper = true)
  | .deleteUser id => id = target ∧ target ≠ admin
  | .audit _ => True
  | _ => False

section Writes

variable {admin target : Uuid} {w : DataWrite} {ws : List DataWrite} {d : Data}

theorem isActiveSuper_writeBack {base cur stored : User} (hcur : cur.isActiveSuper = true)
    (hstored : stored.isActiveSuper = true) :
    (User.writeBack base cur stored).isActiveSuper = true := by
  rw [User.isActiveSuper, Bool.and_eq_true, decide_eq_true_iff] at hcur hstored ⊢
  constructor
  · rcases pick_cases base.isActive cur.isActive stored.isActive with ⟨-, h⟩ | ⟨-, h⟩
    · exact h.trans hstored.1
    · exact h.trans hcur.1
  · change pick base.role cur.role stored.role ∈ superRoles
    rcases pick_cases base.role cur.role stored.role with ⟨-, h⟩ | ⟨-, h⟩
    · rw [h]
      exact hstored.2
    · rw [h]
      exact hcur.2

theorem activeSuper_apply_of_ne (hw : Administers admin target w) {id : Uuid} (hid : id ≠ target) :
    activeSuper (Applies.apply w d) id = activeSuper d id := by
  cases w with
  | user k base cur =>
    obtain ⟨rfl, -⟩ := hw
    rw [activeSuper, users_user, Table.get_modify_of_ne _ _ hid]
    rfl
  | deleteUser k =>
    obtain ⟨rfl, -⟩ := hw
    rw [activeSuper, users_deleteUser, Table.get_erase_of_ne _ hid]
    rfl
  | audit row => rfl
  | token k row => exact hw.elim
  | revoke k t => exact hw.elim
  | replace k k' => exact hw.elim

theorem activeSuper_apply_self (hw : Administers admin admin w) (h : activeSuper d admin = true) :
    activeSuper (Applies.apply w d) admin = true := by
  cases w with
  | user k base cur =>
    obtain ⟨rfl, hcur⟩ := hw
    rw [activeSuper, Option.any_eq_true] at h
    obtain ⟨stored, hstored, hsuper⟩ := h
    rw [activeSuper, users_user, Table.get_modify_self, hstored]
    exact isActiveSuper_writeBack (hcur rfl) hsuper
  | deleteUser k => exact absurd rfl hw.2
  | audit row => exact h
  | token k row => exact hw.elim
  | revoke k t => exact hw.elim
  | replace k k' => exact hw.elim

theorem activeSuper_applyAll_of_ne (hws : ∀ w ∈ ws, Administers admin target w) {id : Uuid}
    (hid : id ≠ target) : activeSuper (applyAll ws d) id = activeSuper d id := by
  induction ws generalizing d with
  | nil => rfl
  | cons w ws ih =>
    rw [applyAll_cons, ih fun v hv => hws v (List.mem_cons_of_mem _ hv),
      activeSuper_apply_of_ne (hws w List.mem_cons_self) hid]

theorem activeSuper_applyAll_self (hws : ∀ w ∈ ws, Administers admin admin w)
    (h : activeSuper d admin = true) : activeSuper (applyAll ws d) admin = true :=
  applyAll_invariant (P := fun d => activeSuper d admin = true)
    (fun w hw _ hd => activeSuper_apply_self (hws w hw) hd) h

/-- **A commit under the condition** leaves an active super administrator: who is not the target, or the
target itself, or who made the request. -/
theorem hasActiveSuper_applyAll (hws : ∀ w ∈ ws, Administers admin target w)
    (hby : (Note.administered admin target).ByActiveSuper d (applyAll ws d))
    (h : HasActiveSuper d) : HasActiveSuper (applyAll ws d) := by
  obtain ⟨id, hid⟩ := h
  by_cases htarget : id = target
  · subst htarget
    cases hafter : activeSuper (applyAll ws d) id with
    | true => exact ⟨id, hafter⟩
    | false =>
      have hadmin : activeSuper d admin = true := hby hid hafter
      by_cases hself : id = admin
      · subst hself
        rw [activeSuper_applyAll_self hws hid] at hafter
        cases hafter
      · refine ⟨admin, ?_⟩
        rw [activeSuper_applyAll_of_ne hws (Ne.symm hself)]
        exact hadmin
  · refine ⟨id, ?_⟩
    rw [activeSuper_applyAll_of_ne hws htarget]
    exact hid

end Writes

/-! ## The routes -/

/-- There is an active super administrator; nothing else is agreed on. -/
def superDiscipline : Discipline Data RowKey DataWrite Note where
  Inv s := HasActiveSuper s.data
  Rely _ _ _ := True
  Guar _ _ _ := True
  Allowed := StillSuper
  rely_refl _ _ := trivial
  rely_trans _ _ _ _ _ _ := trivial
  rely_of_guar _ _ _ _ _ _ := trivial
  guar_refl _ _ := trivial
  lock_ok _ _ row hinv _ := by
    cases row with
    | none => exact ⟨hinv, trivial⟩
    | some k => exact ⟨hinv, trivial⟩
  release_ok _ _ hinv := ⟨hinv, trivial⟩
  unlock_ok _ _ _ hinv := ⟨hinv, trivial⟩
  draw_ok _ _ hinv := ⟨hinv, trivial⟩

section Routes

variable {p : TxId} {admin target : Uuid} {s : Store Data RowKey Note} {α : Type}

theorem safe_of_administers (admin target : Uuid) {m : Handler α}
    (hm : m.Only (Administers admin target) (fun note => note = [.administered admin target])
      fun _ => True) : m.Safe superDiscipline p anyEnd [] s := by
  refine (hm.safe_of_all ?_ (List.forall_mem_nil _)).mono fun _ _ _ _ => trivial
  rintro ws t note rfl hinv hws hallowed
  exact ⟨hasActiveSuper_applyAll hws (hallowed _ List.mem_cons_self) hinv, trivial⟩

/-- Whoever passes `require_role` goes on as an active super administrator. -/
theorem safe_requireRole {f : Except HttpError (Uuid × User) → Handler α} (detail : String)
    (credentials : Credentials) (herror : ∀ e t, (f (.error e)).Safe superDiscipline p anyEnd [] t)
    (hok : ∀ admin user t, user.isActive = true → user.role ∈ superRoles →
      (f (.ok (admin, user))).Safe superDiscipline p anyEnd [] t) :
    (requireRole superRoles detail credentials >>= f).Safe superDiscipline p anyEnd [] s := by
  refine (stable_of_pending _ p fun ws => ws = []).bind (A := fun _ => False) (fun _ _ _ h => h.elim)
    (only_requireRole _ _ _) rfl fun r ws t hr hws => ?_
  subst hws
  cases r with
  | error e => exact herror e t
  | ok x => exact hok x.1 x.2 t (hr x rfl).1 (hr x rfl).2

theorem only_encryptPhone {A : DataWrite → Prop} {B : List Note → Prop} (c : Crypto)
    (stored phone : Option String) : (encryptPhone c stored phone).Only A B fun _ => True := by
  cases phone with
  | none => exact only_pure trivial
  | some phone =>
    rw [encryptPhone]
    split
    · exact only_pure trivial
    · exact only_fresh fun _ => only_pure trivial

/-- An update, of the administrator itself if the user as assigned is an active super administrator. -/
theorem only_applyUpdate (c : Crypto) {user : User} (body : UserUpdateRequest) (ip : Option String)
    (hself : target = admin → (body.assignFirst user).isActiveSuper = true ∧
      ∀ phone, (body.assign user phone).isActiveSuper = true) :
    (applyUpdate c admin target user body ip).Only (Administers admin target)
      (fun note => note = [.administered admin target]) fun _ => True := by
  have hcheck : (checkOrganization target user (body.assignFirst user) body.orgId).Only
      (Administers admin target) (fun note => note = [.administered admin target])
      fun _ => True := by
    cases body.orgId with
    | none => exact only_pure trivial
    | some orgId =>
      refine (only_flushUser ⟨rfl, fun h => (hself h).1⟩).bind fun found _ => ?_
      cases found with
      | false => exact only_pure trivial
      | true =>
        refine only_select _ fun found => ?_
        cases found with
        | false => exact only_pure trivial
        | true => exact only_pure trivial
  refine hcheck.bind fun base _ => ?_
  cases base with
  | error e => exact only_pure trivial
  | ok base =>
    refine (only_encryptPhone c _ _).bind fun phone _ => ?_
    refine (only_flushUser ⟨rfl, fun h => (hself h).2 phone⟩).bind fun found _ => ?_
    cases found with
    | false => exact only_pure trivial
    | true =>
      refine (only_appendAudit (fun _ => trivial) _ _ _ _ _).bind fun _ _ => ?_
      refine only_publish rfl (only_select _ fun refreshed => ?_)
      cases refreshed with
      | none => exact only_pure trivial
      | some user => exact only_pure trivial

/-- What an administrator assigns to itself leaves it an active super administrator. -/
theorem isActiveSuper_assign {body : UserUpdateRequest} {user : User} (hactive : user.isActive = true)
    (hrole : user.role ∈ superRoles)
    (hdemote : ¬ (body.role.any fun role => decide (role ∉ superRoles)) = true)
    (hlock : ¬ body.isActive = some false) : (body.assignFirst user).isActiveSuper = true ∧
      ∀ phone, (body.assign user phone).isActiveSuper = true := by
  have hrole' : body.role.getD user.role ∈ superRoles := by
    cases hbody : body.role with
    | none => exact hrole
    | some role => simpa [hbody] using hdemote
  have hactive' : body.isActive.getD user.isActive = true := by
    cases hbody : body.isActive with
    | none => exact hactive
    | some active => simpa [hbody] using hlock
  refine ⟨?_, fun phone => ?_⟩
  · rw [User.isActiveSuper, Bool.and_eq_true, decide_eq_true_iff]
    exact ⟨hactive, hrole'⟩
  · rw [User.isActiveSuper, Bool.and_eq_true, decide_eq_true_iff]
    exact ⟨hactive', hrole'⟩

/-- **A discipline that keeps such requests safe**: whoever passes `require_role` is `Good`, and who is `Good`
may administer. -/
structure SafeFor (R : Discipline Data RowKey DataWrite Note) (Good : Uuid → Store Data RowKey Note → Prop) :
    Prop where
  role : ∀ {p : TxId} {s : Store Data RowKey Note} {α : Type}
    {f : Except HttpError (Uuid × User) → Handler α} (detail : String) (credentials : Credentials),
    (∀ e t, (f (.error e)).Safe R p anyEnd [] t) →
    (∀ admin user t, user.isActive = true → user.role ∈ superRoles → Good admin t →
      (f (.ok (admin, user))).Safe R p anyEnd [] t) →
    (requireRole superRoles detail credentials >>= f).Safe R p anyEnd [] s
  administers : ∀ {p : TxId} {s : Store Data RowKey Note} {α : Type} (admin target : Uuid) {m : Handler α},
    Good admin s → m.Only (Administers admin target) (fun note => note = [.administered admin target])
      (fun _ => True) → m.Safe R p anyEnd [] s

variable {R : Discipline Data RowKey DataWrite Note} {Good : Uuid → Store Data RowKey Note → Prop}

theorem SafeFor.updateUser (hR : SafeFor R Good) (c : Crypto) (userId : Uuid) (credentials : Credentials)
    (body : UserUpdateRequest) (ip : Option String) :
    (updateUser c userId credentials body ip).Safe R p anyEnd [] s := by
  refine hR.role _ _ (fun _ _ => trivial) fun adminId user t hactive hrole hgood => ?_
  refine hR.administers adminId userId hgood (only_select _ fun found => ?_)
  cases found with
  | none => exact only_pure trivial
  | some row =>
    dsimp only
    split_ifs with hself hdemote hlock
    · exact only_pure trivial
    · exact only_pure trivial
    · exact only_applyUpdate c body ip fun _ => isActiveSuper_assign hactive hrole hdemote hlock
    · exact only_applyUpdate c body ip fun h => absurd h hself

theorem SafeFor.deleteUser (hR : SafeFor R Good) (c : Crypto) (userId : Uuid) (credentials : Credentials)
    (ip : Option String) :
    (deleteUser c userId credentials ip).Safe R p anyEnd [] s := by
  refine hR.role _ _ (fun _ _ => trivial) fun adminId user t hactive hrole hgood => ?_
  refine hR.administers adminId userId hgood (only_select _ fun found => ?_)
  have hlast : ∀ target, (isLastSuper userId target).Only (Administers adminId userId)
      (fun note => note = [.administered adminId userId]) fun _ => True := by
    intro target
    unfold isLastSuper
    split
    · exact only_select _ fun _ => only_pure trivial
    · exact only_pure trivial
  cases found with
  | none => exact only_pure trivial
  | some target =>
    dsimp only
    split_ifs with hself
    · exact only_pure trivial
    · refine (hlast target).bind fun last _ => ?_
      cases last with
      | true => exact only_pure trivial
      | false =>
        refine (only_appendAudit (fun _ => trivial) _ _ _ _ _).bind fun _ _ => ?_
        refine only_update_one _ (fun _ => ⟨rfl, hself⟩) fun data => only_answer _ fun referenced => ?_
        split_ifs
        · exact only_pure trivial
        · exact only_publish rfl (only_pure trivial)

theorem SafeFor.userRoute (hR : SafeFor R Good) (c : Crypto) (request : UserRequest) :
    (userRoute c request).Safe R p anyEnd [] s := by
  cases request with
  | update userId credentials body ip =>
    exact (hR.updateUser c userId credentials body ip).bind fun _ _ _ _ => trivial
  | delete userId credentials ip =>
    exact (hR.deleteUser c userId credentials ip).bind fun _ _ _ _ => trivial

theorem safeFor_superDiscipline : SafeFor superDiscipline fun _ _ => True where
  role detail credentials herror hok :=
    safe_requireRole detail credentials herror fun admin user t hactive hrole => hok admin user t hactive hrole trivial
  administers admin target _ _ hm := safe_of_administers admin target hm

theorem safe_userRoute (c : Crypto) (request : UserRequest) :
    (userRoute c request).Safe superDiscipline p anyEnd [] s := safeFor_superDiscipline.userRoute c request

end Routes

/-! ## Runs -/

/-- The engine that runs such requests. -/
abbrev userStep (c : Crypto) : Engine Data RowKey DataWrite Env Note → Op UserRequest Env →
      Option (Engine Data RowKey DataWrite Env Note) :=
  Engine.step (userRoute c)

/-- **There is always an active super administrator** in a run whose commits meet the condition. -/
theorem hasActiveSuper_of_runs (c : Crypto) {s : Store Data RowKey Note} (hs : HasActiveSuper s.data)
    {g : Engine Data RowKey DataWrite Env Note}
    (hrun : Runs (userStep c) (CommitsOnly StillSuper) (Engine.start s) g) :
    HasActiveSuper g.store.data :=
  invariant_of_runs (R := superDiscipline) (fun _ request _ _ => safe_userRoute c request)
    (allSafe_start hs) (permits_of_commits (fun _ _ _ => trivial) hrun)

/-! Two super administrators. -/

/-- A super administrator. -/
def exampleSuper : User where
  orgId := 0
  fullName := "Quản trị"
  email := "admin@example.gov.vn"
  phoneEncrypted := none
  role := .superAdmin
  passwordHash := none
  totpSecretEncrypted := none
  backupCodes := none
  is2faEnabled := false
  isActive := true
  lastLoginAt := none
  mustChangePassword := false
  totpLastCounter := none

/-- Two super administrators, `0` and `1`. -/
def twoSupers : Store Data RowKey Note :=
  { emptyStore with
    data := { emptyData with users := (Table.empty.insert 0 exampleSuper).insert 1 exampleSuper } }

/-- The administrator makes the user a viewer. -/
def exampleDemotion (admin target : Uuid) : UserRequest :=
  .update target (.user admin) ⟨none, some .viewer, none, none, none⟩ none

theorem hasActiveSuper_twoSupers : HasActiveSuper twoSupers.data := ⟨0, by decide⟩

/-- **Two super administrators demote each other**: each is one when its request starts, and none is left
when both have committed. -/
theorem supers_demote_each_other : ¬ ∀ (c : Crypto) (s : Store Data RowKey Note),
    HasActiveSuper s.data → ∀ g, Runs (userStep c) anyAction (Engine.start s) g →
      HasActiveSuper g.store.data := by
  intro h
  obtain ⟨g, hrun, hg⟩ := exists_runs_of_exec (G := anyAction) (userStep exampleCrypto)
    (Engine.start twoSupers)
    ([.begin 0 (exampleDemotion 0 1), .begin 1 (exampleDemotion 1 0)] ++ statements 0 7 ++
      statements 1 7 ++ statements 0 1 ++ statements 1 1)
    (p := fun g => decide ((g.store.data.users.rowsWhere User.isActiveSuper) = []))
    (by decide +kernel)
  obtain ⟨id, hid⟩ := h exampleCrypto twoSupers hasActiveSuper_twoSupers g hrun
  rw [activeSuper, Option.any_eq_true] at hid
  obtain ⟨u, hu, hsuper⟩ := hid
  have hmem := Table.mem_rowsWhere.mpr ⟨hu, hsuper⟩
  rw [of_decide_eq_true hg] at hmem
  exact absurd hmem List.not_mem_nil

theorem hasActiveSuper_of_demotion :
    ∃ g, Runs (userStep exampleCrypto) (CommitsOnly StillSuper) (Engine.start twoSupers) g ∧
      activeSuper g.store.data 1 = false ∧ HasActiveSuper g.store.data := by
  obtain ⟨g, hrun, hg⟩ := exists_runs_of_exec (G := CommitsOnly StillSuper) (userStep exampleCrypto)
    (Engine.start twoSupers) ([.begin 0 (exampleDemotion 0 1)] ++ statements 0 8)
    (p := fun g => !activeSuper g.store.data 1) (by decide +kernel)
  exact ⟨g, hrun, by simpa using hg,
    hasActiveSuper_of_runs exampleCrypto hasActiveSuper_twoSupers hrun⟩

/-! ## Where the rank comes from -/

/-- The rank of the user goes back, by commits of administrators, to one who had it at first. -/
def Appointed (first : Data) (events : List Note) (id : Uuid) : Prop :=
  ∃ root, activeSuper first root = true ∧
    Relation.ReflTransGen (fun admin target => .administered admin target ∈ events) root id

theorem Appointed.mono {first : Data} {events events' : List Note} {id : Uuid}
    (h : Appointed first events id) (hsub : events ⊆ events') : Appointed first events' id := by
  obtain ⟨root, hroot, hchain⟩ := h
  exact ⟨root, hroot, Relation.ReflTransGen.mono (fun _ _ hmem => hsub hmem) _ _ hchain⟩

/-- All active super administrators are appointed, and what has been announced is not taken back. -/
def appointedDiscipline (first : Data) : Discipline Data RowKey DataWrite Note where
  Inv s := ∀ id, activeSuper s.data id = true → Appointed first s.events id
  Rely _ s t := s.events ⊆ t.events
  Guar _ s t := s.events ⊆ t.events
  Allowed _ _ _ := True
  rely_refl _ s := List.Subset.refl s.events
  rely_trans _ _ _ _ h h' := List.Subset.trans h h'
  rely_of_guar _ _ _ _ _ h := h
  guar_refl _ s := List.Subset.refl s.events
  lock_ok p s row hinv _ := by
    rw [s.data_lock p row, s.events_lock p row]
    exact ⟨hinv, List.Subset.refl s.events⟩
  release_ok _ s hinv := ⟨hinv, List.Subset.refl s.events⟩
  unlock_ok _ s _ hinv := ⟨hinv, List.Subset.refl s.events⟩
  draw_ok _ s hinv := ⟨hinv, List.Subset.refl s.events⟩

section Appointed

variable {first : Data} {p : TxId} {s : Store Data RowKey Note}

/-- A commit of an appointed administrator appoints nobody but the target. -/
theorem publish_appointed {admin target : Uuid} {ws : List DataWrite}
    (hinv : (appointedDiscipline first).Inv s) (hws : ∀ w ∈ ws, Administers admin target w)
    (hadmin : Appointed first s.events admin) :
    (appointedDiscipline first).Inv (s.publish p ws [.administered admin target]) := by
  intro id hid
  have hsub : s.events ⊆ .administered admin target :: s.events := List.subset_cons_self _ _
  by_cases htarget : id = target
  · obtain ⟨root, hroot, hchain⟩ := hadmin.mono hsub
    exact ⟨root, hroot, hchain.tail (htarget ▸ List.mem_cons_self)⟩
  · have hsame : activeSuper (applyAll ws s.data) id = activeSuper s.data id :=
      activeSuper_applyAll_of_ne hws htarget
    exact (hinv id (hsame.symm.trans hid)).mono hsub

theorem safeFor_appointedDiscipline :
    SafeFor (appointedDiscipline first) fun admin s => Appointed first s.events admin where
  role {p s α f} detail credentials herror hok := by
    cases credentials with
    | missing => exact herror _ s
    | invalid => exact herror _ s
    | user id =>
      intro t _ ht
      dsimp only [Prog.bind, Store.view, applyAll_nil]
      cases huser : t.data.users.get id with
      | none => exact herror _ t
      | some user =>
        dsimp only
        split
        · rename_i hactive
          change Prog.Safe _ p (Prog.bind (Prog.bind (if user.mustChangePassword = true then _ else _) _) f) _ [] t
          split
          · exact herror _ t
          · change Prog.Safe _ p (Prog.bind (if user.role ∈ superRoles then _ else _) f) _ [] t
            split
            · rename_i hrole
              refine hok id user t hactive hrole (ht id ?_)
              rw [activeSuper, huser, Option.any_some, User.isActiveSuper, hactive, decide_eq_true hrole]
              rfl
            · exact herror _ t
        · exact herror _ t
  administers {p s α} admin target m hadmin hm := by
    refine (hm.safe (P := fun ws t => (∀ w ∈ ws, Administers admin target w) ∧ Appointed first t.events admin)
      ((stable_of_pending _ p _).and ⟨?_, ?_, ?_⟩) ?_ ?_ ⟨List.forall_mem_nil _, hadmin⟩).mono
        fun _ _ _ _ => trivial
    · exact fun _ _ _ hsub h => h.mono hsub
    · exact fun _ _ h => h
    · intro _ t row h
      rw [t.events_lock p row]
      exact h
    · exact fun _ _ w hw h => ⟨List.forall_mem_append.mpr ⟨h.1, List.forall_mem_singleton.mpr hw⟩, h.2⟩
    · rintro ws t note rfl hinv ⟨hws, hadmin⟩ -
      have hsub : t.events ⊆ .administered admin target :: t.events := List.subset_cons_self _ _
      exact ⟨publish_appointed hinv hws hadmin, hsub, List.forall_mem_nil _, hadmin.mono hsub⟩

end Appointed

/-- **Nobody appoints itself**: in every run, every active super administrator goes back to one of the first,
by commits of administrators who go back to them as well. -/
theorem superAdmins_are_appointed (c : Crypto) {s : Store Data RowKey Note}
    {g : Engine Data RowKey DataWrite Env Note} (hrun : Runs (userStep c) anyAction (Engine.start s) g)
    {id : Uuid} (hid : activeSuper g.store.data id = true) : Appointed s.data g.store.events id :=
  invariant_of_runs (fun _ request _ _ => safeFor_appointedDiscipline.userRoute c request)
    (allSafe_start fun id hid => ⟨id, hid, .refl⟩)
    (hrun.mono fun g op _ => Discipline.permits_of_always (fun _ _ _ => trivial) (fun _ _ _ => trivial) g op)
    id hid

/-- A viewer is made a super administrator. -/
theorem superAdmins_are_appointed_viewer : ∃ first : Data, activeSuper first 1 = false ∧
    ∃ events, Appointed first events 1 := by
  let first : Data := { emptyData with
    users := (Table.empty.insert 0 exampleSuper).insert 1 { exampleSuper with role := .viewer } }
  obtain ⟨g, hrun, hg⟩ := exists_runs_of_exec (G := anyAction) (userStep exampleCrypto)
    (Engine.start { emptyStore with data := first })
    ([.begin 0 (.update 1 (.user 0) ⟨none, some .superAdmin, none, none, none⟩ none)] ++ statements 0 8)
    (p := fun g => activeSuper g.store.data 1) (by decide +kernel)
  exact ⟨first, by decide, _, superAdmins_are_appointed exampleCrypto hrun hg⟩

end AssetInventory.Server

import AssetInventory.Fleet.Identity
import AssetInventory.Fleet.Matching

/-!
# The same file again

An import looks for the id that its payload names, then for the id of the payload's fingerprint, and then
for a machine with a similar fingerprint.  What it creates has the id of the fingerprint; the id that the
payload names is not kept.

* `foundBy`: which machine an import finds; `alone_importOffline`: what it makes of it.
* `Repeatable`: what is expected when a file is imported again and again.
* `FoundAgain`: the condition on the payload and the inventory.
* `repeatable_iff`: an accepted payload is repeatable if and only if it meets the condition.
-/

namespace AssetInventory.Fleet

open PyJson PyTime Orm RowStore ReadCommitted Server Interleaving

/-! ## What a machine is found by -/

/-- What a machine is found by. -/
def Machine.face (m : Machine) : Uuid × String × Fingerprint := (m.orgId, m.machineUuid, m.fingerprint)

/-- The same machines, as far as imports look at them, in the same organisations; the users are still
there. -/
structure SameFaces (d d' : Data) : Prop where
  keys : d'.machines.keys = d.machines.keys
  faces : ∀ k, (d'.machines.get k).map Machine.face = (d.machines.get k).map Machine.face
  organizations : d'.organizations = d.organizations
  users : ∀ id user, d.users.get id = some user → d'.users.get id = some user

/-- Which machine has an id.  The outer `none` is an exception. -/
def exactId (data : Data) (orgId : Uuid) (machineUuid : String) : Option (Option Uuid) :=
  (exactMatch data orgId machineUuid).map (Option.map Prod.fst)

/-- Which machine an import finds. -/
def foundBy (I : Identification) (data : Data) (orgId : Uuid) (machineUuid : String)
    (fingerprint : Fingerprint) (weighted : String) (answers : ℕ → Env) : Option (Option Uuid) :=
  (selected data (findImported I orgId machineUuid fingerprint weighted) answers).map (Option.map Prod.fst)

section SameFaces

variable {d d' d'' : Data} {orgId : Uuid} {caller : Option Uuid}

theorem SameFaces.refl (d : Data) : SameFaces d d := ⟨rfl, fun _ => rfl, rfl, fun _ _ h => h⟩

theorem SameFaces.trans (h : SameFaces d d') (h' : SameFaces d' d'') : SameFaces d d'' where
  keys := h'.keys.trans h.keys
  faces k := (h'.faces k).trans (h.faces k)
  organizations := h'.organizations.trans h.organizations
  users id user hu := h'.users id user (h.users id user hu)

theorem SameFaces.adminOf (h : SameFaces d d') {admin : User} (hadmin : adminOf d caller = some admin) :
    Fleet.adminOf d' caller = some admin := by
  obtain ⟨hget, hactive⟩ := Option.filter_eq_some_iff.mp hadmin
  obtain ⟨id, rfl, hid⟩ := Option.bind_eq_some_iff.mp hget
  exact Option.filter_eq_some_iff.mpr ⟨h.users id admin hid, hactive⟩

theorem SameFaces.importOrg (h : SameFaces d d') (J : Importing) (admin : User)
    (payload : List (String × Json)) : importOrg J d' admin payload = Fleet.importOrg J d admin payload := by
  rw [Fleet.importOrg, Fleet.importOrg, visibleOrgs, visibleOrgs, h.organizations]

theorem SameFaces.machinesWith (h : SameFaces d d') (machineUuid : String) :
    (machinesWith d' orgId machineUuid).map (Prod.map id Machine.face) =
      (Fleet.machinesWith d orgId machineUuid).map (Prod.map id Machine.face) :=
  Table.map_rowsWhere_congr h.keys h.faces fun face => decide (face.1 = orgId ∧ face.2.1 = machineUuid)

theorem SameFaces.machinesOf (h : SameFaces d d') (orgId : Uuid) :
    (machinesOf d' orgId).map (Prod.map id Machine.face) =
      (Fleet.machinesOf d orgId).map (Prod.map id Machine.face) :=
  Table.map_rowsWhere_congr h.keys h.faces fun face => decide (face.1 = orgId)

theorem SameFaces.exactId (h : SameFaces d d') (machineUuid : String) :
    exactId d' orgId machineUuid = Fleet.exactId d orgId machineUuid := by
  have hfst : ∀ xs : List (Uuid × Machine), (scalarOneOrNone xs).map (Option.map Prod.fst) =
      scalarOneOrNone ((xs.map (Prod.map id Machine.face)).map Prod.fst) := by
    intro xs
    rw [List.map_map, ← scalarOneOrNone_map]
    rfl
  rw [Fleet.exactId, Fleet.exactId, exactMatch, exactMatch, hfst, hfst, h.machinesWith]

theorem firstSame_congr_face (I : Identification) (fingerprint : Fingerprint)
    {xs ys : List (Uuid × Machine)}
    (h : xs.map (Prod.map id Machine.face) = ys.map (Prod.map id Machine.face)) :
    (firstSame I fingerprint xs).map (Option.map Prod.fst) =
      (firstSame I fingerprint ys).map (Option.map Prod.fst) := by
  induction xs generalizing ys with
  | nil =>
    rw [List.map_eq_nil_iff.mp h.symm]
  | cons x xs ih =>
    obtain ⟨y, ys, rfl, hface, hrest⟩ := List.map_eq_cons_iff.mp h.symm
    obtain ⟨hid, hface⟩ := Prod.mk.inj hface
    have hfingerprint : y.2.fingerprint = x.2.fingerprint := congrArg (fun face => face.2.2) hface
    rw [firstSame, firstSame, hfingerprint]
    cases I.isSameMachine fingerprint x.2.fingerprint with
    | none => rfl
    | some same =>
      cases same with
      | true => exact congrArg (fun k => some (some k)) hid.symm
      | false => exact ih hrest.symm

/-- Which machine is found: by the id that is named, by the id of the fingerprint, or by a comparison. -/
theorem foundBy_eq (I : Identification) (data : Data) (machineUuid : String) (fingerprint : Fingerprint)
    (weighted : String) (answers : ℕ → Env) :
    foundBy I data orgId machineUuid fingerprint weighted answers =
      match if machineUuid = "" then some none else exactId data orgId machineUuid with
      | none => none
      | some (some i) => some (some i)
      | some none =>
        if fingerprint = [] then some none
        else match exactId data orgId weighted with
          | none => none
          | some (some i) => some (some i)
          | some none => (firstSame I fingerprint
              (inOrder (answers 0).rank (machinesOf data orgId))).map (Option.map Prod.fst) := by
  have hmachine : (selected data (findMachine I orgId weighted fingerprint) answers).map
      (Option.map Prod.fst) = match exactId data orgId weighted with
        | none => none
        | some (some i) => some (some i)
        | some none => (firstSame I fingerprint
            (inOrder (answers 0).rank (machinesOf data orgId))).map (Option.map Prod.fst) := by
    rw [selected_findMachine, exactId]
    rcases exactMatch data orgId weighted with _ | _ | x <;> rfl
  have hnamed : (if machineUuid = "" then some none else exactId data orgId machineUuid) =
      (if machineUuid = "" then some none else exactMatch data orgId machineUuid).map
        (Option.map Prod.fst) := by
    split
    · rfl
    · rfl
  rw [foundBy, selected_findImported, hnamed, ← hmachine]
  rcases (if machineUuid = "" then some none else exactMatch data orgId machineUuid) with _ | _ | x
  · rfl
  · dsimp only
    split
    · rfl
    · rfl
  · rfl

/-- **The same machine is found.** -/
theorem SameFaces.foundBy (h : SameFaces d d') (I : Identification) (machineUuid : String)
    (fingerprint : Fingerprint) (weighted : String) (answers : ℕ → Env) :
    foundBy I d' orgId machineUuid fingerprint weighted answers =
      Fleet.foundBy I d orgId machineUuid fingerprint weighted answers := by
  have hsame : (firstSame I fingerprint (inOrder (answers 0).rank (Fleet.machinesOf d' orgId))).map
      (Option.map Prod.fst) = (firstSame I fingerprint
        (inOrder (answers 0).rank (Fleet.machinesOf d orgId))).map (Option.map Prod.fst) :=
    firstSame_congr_face I fingerprint (by rw [inOrder_map, inOrder_map, h.machinesOf])
  rw [foundBy_eq, foundBy_eq, h.exactId, h.exactId, hsame]

/-! ## Writes -/

/-- A write that changes nothing which imports look at. -/
def KeepsFace : DataWrite → Prop
  | .machine _ base cur => cur.face = base.face
  | .newMachine _ _ => False
  | _ => True

theorem KeepsFace.of_aside (w : DataWrite) (h : w.Aside) : KeepsFace w := by
  cases w <;> trivial

theorem KeepsFace.of_apart (w : DataWrite) (h : w.Apart) : KeepsFace w := forall_apart of_aside w h

theorem Machine.face_writeBack {base cur : Machine} (h : cur.face = base.face) (stored : Machine) :
    (Machine.writeBack base cur stored).face = stored.face := by
  obtain ⟨horg, hrest⟩ := Prod.mk.inj h
  obtain ⟨huuid, hfingerprint⟩ := Prod.mk.inj hrest
  refine Prod.ext ?_ (Prod.ext ?_ ?_)
  · exact (congrArg (pick base.orgId · stored.orgId) horg).trans (pick_same _ _)
  · exact (congrArg (pick base.machineUuid · stored.machineUuid) huuid).trans (pick_same _ _)
  · exact (congrArg (pick base.fingerprint · stored.fingerprint) hfingerprint).trans (pick_same _ _)

theorem KeepsFace.sameFaces {w : DataWrite} (hw : KeepsFace w) (d : Data) :
    SameFaces d (Applies.apply w d) := by
  cases w with
  | machine id base cur =>
    refine ⟨rfl, fun k => ?_, rfl, fun _ _ h => h⟩
    rw [machines_machine]
    by_cases hk : k = id
    · subst hk
      rw [Table.get_modify_self, Option.map_map]
      exact congrArg (Option.map · _) (funext fun stored => Machine.face_writeBack hw stored)
    · rw [Table.get_modify_of_ne _ _ hk]
  | newMachine id row => exact hw.elim
  | newUser id row => exact ⟨rfl, fun _ => rfl, rfl, fun _ _ h => Table.get_insert_of_get h⟩
  | _ => exact ⟨rfl, fun _ => rfl, rfl, fun _ _ h => h⟩

end SameFaces

/-! ## What an import does -/

section Import

variable (I : Identification) (J : Importing) {x : Alone Data DataWrite Env} {B : List Note → Prop}
  {A : DataWrite → Prop} {P : Data → Prop}

/-- The configuration of the payload can be stored. -/
def Storable (payload : List (String × Json)) : Prop :=
  (lookup "public_ip" (specFromPayload (innerSpec payload))).all (fun value => (columnText value).isSome) =
      true ∧
    (specFromPayload (innerSpec payload) = [] ∨
      J.columnsOf (specFromPayload (innerSpec payload)) ≠ none ∧
      columnText (getD (specFromPayload (innerSpec payload)) "config_hash" .null) ≠ none ∧
      columnBool (getD (innerSpec payload) "is_vm" .null) ≠ none)

theorem importedFrom_isSome (m : Machine) (payload : List (String × Json)) :
    (m.importedFrom payload).isSome =
      (lookup "public_ip" (specFromPayload (innerSpec payload))).all fun value => (columnText value).isSome := by
  rw [Machine.importedFrom]
  cases lookup "public_ip" (specFromPayload (innerSpec payload)) with
  | none => rfl
  | some value =>
    rw [Option.elim_some, Option.all_some]
    cases columnText value with
    | none => rfl
    | some text => rfl

theorem only_importSpec_iff (hA : ∀ w : DataWrite, w.Apart → A w) (machineId : Uuid)
    (payload : List (String × Json)) (collectedAt : Time) :
    (importSpec J machineId payload collectedAt).Only A B fun r =>
      r = .ok () ↔ (specFromPayload (innerSpec payload) = [] ∨
        J.columnsOf (specFromPayload (innerSpec payload)) ≠ none ∧
        columnText (getD (specFromPayload (innerSpec payload)) "config_hash" .null) ≠ none ∧
        columnBool (getD (innerSpec payload) "is_vm" .null) ≠ none) := by
  unfold importSpec
  dsimp only
  split
  · rename_i hempty
    exact only_pure (iff_of_true rfl (.inl hempty))
  · rename_i hspec
    split
    · rename_i hcolumns htext hbool
      refine only_insert (hA _ trivial) ?_
      refine (only_upsertCurrentAndSoftware hA _ machineId _ _ _ _).bind fun _ _ => only_pure ?_
      rw [hcolumns, htext, hbool]
      simp
    · rename_i hnone
      refine only_pure (iff_of_false (by simp) ?_)
      rintro (hempty | ⟨hcolumns, htext, hbool⟩)
      · exact hspec hempty
      · obtain ⟨reported, hcolumns⟩ := Option.ne_none_iff_exists'.mp hcolumns
        obtain ⟨text, htext⟩ := Option.ne_none_iff_exists'.mp htext
        obtain ⟨isVm, hbool⟩ := Option.ne_none_iff_exists'.mp hbool
        exact hnone _ _ _ hcolumns htext hbool

/-- **The second half of an import** succeeds if the configuration can be stored, and leaves what the writes
of its kind keep. -/
theorem keeps_finishImport_storable (hP : ∀ w, KeepsFace w → ∀ d, P d → P (Applies.apply w d))
    (hx : P x.view) {id : Uuid} {base machine : Machine} (hbase : machine.face = base.face) (isNew : Bool)
    (payload : List (String × Json)) (collectedAt : Time) :
    (finishImport J id base machine isNew payload collectedAt).CommitsKeep P
      (fun r y => ((∃ a, r = .ok a) ↔ Storable J payload) ∧
        ∀ a, r = .ok a → a.machineId = id ∧ a.isNew = isNew ∧ P y.data) x := by
  have hpublic := importedFrom_isSome machine payload
  rw [finishImport]
  cases hcur : machine.importedFrom payload with
  | none =>
    rw [hcur] at hpublic
    refine keeps_pure ⟨iff_of_false (by rintro ⟨_, h⟩; cases h) fun h => ?_, fun a h => by cases h⟩
    rw [h.1] at hpublic
    cases hpublic
  | some cur =>
    rw [hcur] at hpublic
    obtain ⟨_, _, rfl⟩ := Machine.importedFrom_eq hcur
    refine Prog.CommitsKeep.bind (((only_flushMachine (B := fun _ => True) hbase).commitsKeep_view hP
      hx).mono fun _ y hy => ?_)
    refine Prog.CommitsKeep.bind (((only_importSpec_iff (B := fun _ => True) J KeepsFace.of_apart id payload
      collectedAt).commitsKeep_view hP hy.2).mono fun stored z hz => ?_)
    cases stored with
    | error e =>
      refine keeps_pure ⟨iff_of_false (by rintro ⟨_, h⟩; cases h) fun h => ?_, fun a h => by cases h⟩
      cases hz.1.mpr h.2
    | ok _ =>
      refine keeps_publish _ hz.2 (keeps_pure ⟨iff_of_true ⟨_, rfl⟩ ⟨hpublic.symm, hz.1.mp rfl⟩, ?_⟩)
      rintro a ⟨⟩
      exact ⟨rfl, rfl, hz.2⟩

theorem keeps_selected (x : Alone Data DataWrite Env) (orgId : Uuid) (machineUuid : String)
    (fingerprint : Fingerprint) (weighted : String) :
    (findImported I orgId machineUuid fingerprint weighted).CommitsKeep P (fun found y =>
      found = selected x.view (findImported I orgId machineUuid fingerprint weighted) x.answers ∧
        y.view = x.view ∧ y.drawn = x.drawn ∧ ∃ k, y.answers = fun i => x.answers (i + k)) x := by
  rw [selected_findImported]
  refine keeps_select _ ?_
  rcases (if machineUuid = "" then some none else exactMatch x.view orgId machineUuid) with _ | _ | m
  · exact keeps_pure ⟨rfl, rfl, rfl, 0, rfl⟩
  · dsimp only
    split
    · exact keeps_pure ⟨rfl, rfl, rfl, 0, rfl⟩
    · rw [selected_findMachine]
      refine keeps_select _ ?_
      rcases exactMatch x.view orgId weighted with _ | _ | m
      · exact keeps_pure ⟨rfl, rfl, rfl, 0, rfl⟩
      · exact keeps_answer _ (keeps_select _ (keeps_pure ⟨rfl, rfl, rfl, 1, rfl⟩))
      · exact keeps_pure ⟨rfl, rfl, rfl, 0, rfl⟩
  · exact keeps_pure ⟨rfl, rfl, rfl, 0, rfl⟩

/-- A machine has been created. -/
def Created (id : Uuid) (face : Uuid × String × Fingerprint) (d d' : Data) : Prop :=
  ∃ row : Machine, row.face = face ∧ SameFaces (Applies.apply (DataWrite.newMachine id row) d) d'

/-- What an import answers and leaves, by what it has found. -/
def Imports (payload : List (String × Json)) (face : Uuid × String × Fingerprint)
    (x : Alone Data DataWrite Env) (r : Except HttpError OfflineImportResponse) (d : Data) :
    Option (Option Uuid) → Prop
  | none => ∀ a, r ≠ .ok a
  | some none => ((∃ a, r = .ok a) ↔ Storable J payload) ∧
    ∀ a, r = .ok a → a.machineId = x.drawn ∧ a.isNew = true ∧ Created x.drawn face x.view d
  | some (some id) => ((∃ a, r = .ok a) ↔ Storable J payload) ∧
    ∀ a, r = .ok a → a.machineId = id ∧ a.isNew = false ∧ SameFaces x.view d

theorem keeps_insertImported (orgId : Uuid) (weighted : String) (fingerprint : Fingerprint)
    (hostname : Option String) (time collectedAt : Time) (payload : List (String × Json)) :
    (do
      let (id, machine) ← insertImported orgId weighted fingerprint hostname time collectedAt
      finishImport J id machine machine true payload collectedAt :
        Handler (Except HttpError OfflineImportResponse)).CommitsKeep
      (Created x.drawn (orgId, weighted, fingerprint) x.view)
      (fun r y => ((∃ a, r = .ok a) ↔ Storable J payload) ∧ ∀ a, r = .ok a → a.machineId = x.drawn ∧
        a.isNew = true ∧ Created x.drawn (orgId, weighted, fingerprint) x.view y.data) x := by
  have hstays : ∀ w, KeepsFace w → ∀ d, Created x.drawn (orgId, weighted, fingerprint) x.view d →
      Created x.drawn (orgId, weighted, fingerprint) x.view (Applies.apply w d) := by
    rintro w hw d ⟨row, hface, hsame⟩
    exact ⟨row, hface, hsame.trans (hw.sameFaces d)⟩
  refine Prog.CommitsKeep.bind (keeps_fresh (keeps_insert _ (Prog.CommitsKeep.bind
    (((only_ensureClassification (B := fun _ => True) (fun _ => trivial) _ none "bmnn").commitsKeep_view
      hstays ?_).mono fun _ y hy => keeps_pure ?_))))
  · rw [Alone.view_write]
    exact ⟨_, rfl, .refl _⟩
  · exact keeps_finishImport_storable J hstays hy.2 rfl true payload collectedAt

/-- **An import**, from the verified payload on. -/
theorem imports_importPayload (admin : User) (payload : List (String × Json)) (machineUuid : String)
    {fingerprint : Fingerprint} {weighted : String} (hostname : Option String)
    (hweighted : computeWeightedId I fingerprint = some weighted) :
    Imports J payload (importOrg J x.view admin payload, weighted, fingerprint) x
      ((importPayload I J admin payload machineUuid fingerprint hostname).alone x).1
      ((importPayload I J admin payload machineUuid fingerprint hostname).alone x).2.data
      (foundBy I x.view (importOrg J x.view admin payload) machineUuid fingerprint weighted x.answers) := by
  rw [foundBy]
  cases hfound : selected x.view (findImported I (importOrg J x.view admin payload) machineUuid fingerprint
      weighted) x.answers with
  | none =>
    have hkeeps : (importPayload I J admin payload machineUuid fingerprint hostname).CommitsKeep
        (fun _ => True) (fun r _ => ∀ a, r ≠ .ok a) x := by
      refine keeps_select _ ?_
      rw [hweighted]
      refine Prog.CommitsKeep.bind ((keeps_selected I x _ _ _ _).mono fun found y hy => ?_)
      rw [hy.1, hfound]
      exact keeps_pure fun a h => by cases h
    exact hkeeps.ends
  | some found =>
    cases found with
    | none =>
      have hkeeps : (importPayload I J admin payload machineUuid fingerprint hostname).CommitsKeep
          (Created x.drawn (importOrg J x.view admin payload, weighted, fingerprint) x.view)
          (fun r y => ((∃ a, r = .ok a) ↔ Storable J payload) ∧ ∀ a, r = .ok a → a.machineId = x.drawn ∧
            a.isNew = true ∧
            Created x.drawn (importOrg J x.view admin payload, weighted, fingerprint) x.view y.data) x := by
        refine keeps_select _ ?_
        rw [hweighted]
        refine Prog.CommitsKeep.bind ((keeps_selected I x _ _ _ _).mono fun found y hy => ?_)
        obtain ⟨rfl, hview, hdrawn, -⟩ := hy
        rw [hfound, ← hview, ← hdrawn]
        exact keeps_answer _ (keeps_insertImported (x := { y with answers := fun i => y.answers (i + 1) }) J _
          weighted fingerprint hostname _ _ payload)
      exact hkeeps.ends
    | some m =>
      have hstays : ∀ w, KeepsFace w → ∀ d, SameFaces x.view d → SameFaces x.view (Applies.apply w d) :=
        fun _ hw d hd => hd.trans (hw.sameFaces d)
      have hkeeps : (importPayload I J admin payload machineUuid fingerprint hostname).CommitsKeep
          (SameFaces x.view) (fun r y => ((∃ a, r = .ok a) ↔ Storable J payload) ∧
            ∀ a, r = .ok a → a.machineId = m.1 ∧ a.isNew = false ∧ SameFaces x.view y.data) x := by
        refine keeps_select _ ?_
        rw [hweighted]
        refine Prog.CommitsKeep.bind ((keeps_selected I x _ _ _ _).mono fun found y hy => ?_)
        obtain ⟨rfl, hview, -, -⟩ := hy
        rw [hfound]
        refine keeps_answer _ (Prog.CommitsKeep.bind (((only_flushMachine (B := fun _ => True)
          (by rfl)).commitsKeep_view hstays ?_).mono fun _ z hz => Prog.CommitsKeep.bind
          (((only_ensureClassification (B := fun _ => True) (fun _ => trivial) _ none
            "bmnn").commitsKeep_view hstays hz.2).mono fun _ z' hz' => ?_)))
        · exact hview ▸ .refl _
        · exact keeps_finishImport_storable J hstays hz'.2 rfl false payload _
      exact hkeeps.ends

end Import

/-! ## Requests -/

/-- An import and who asks for it. -/
abbrev ImportRequest := OfflineImportRequest × Option Uuid

variable (c : FleetSettings)

abbrev importRoute (request : ImportRequest) : Handler (Except HttpError OfflineImportResponse) :=
  importOffline c.identification c.importing request.1 request.2

/-- The organisation that an import is about. -/
def orgOf (data : Data) (admin : User) (request : ImportRequest) : Uuid :=
  importOrg c.importing data admin request.1.payload

/-- The id that the payload names. -/
def namedBy (request : ImportRequest) : String := payloadMachineUuid c.importing request.1.payload

/-- A request that gets as far as the lookup. -/
structure Readable (data : Data) (request : ImportRequest) (admin : User) (fingerprint : Fingerprint)
    (weighted : String) : Prop where
  caller : adminOf data request.2 = some admin
  signature : c.importing.verifySignature request.1.payload request.1.signatureB64 request.1.publicKeyPem =
    true
  components : payloadFingerprint request.1.payload = some fingerprint
  hostname : columnText (getD request.1.payload "hostname" .null) ≠ none
  named : ¬ (namedBy c request = "" ∧ fingerprint = [])
  computed : computeWeightedId c.identification fingerprint = some weighted

section Requests

variable {c} {data : Data} {request : ImportRequest} {admin : User} {fingerprint : Fingerprint}
  {weighted : String} {x : Alone Data DataWrite Env} {s : AtRest Data}

theorem Readable.alone (h : Readable c x.view request admin fingerprint weighted) :
    ∃ hostname, (importRoute c request).alone x = (importPayload c.identification c.importing admin
      request.1.payload (namedBy c request) fingerprint hostname).alone x := by
  obtain ⟨r, hr, hadmin⟩ := alone_requireAdmin request.2 x
  obtain ⟨hostname, hhostname⟩ := Option.ne_none_iff_exists'.mp h.hostname
  refine ⟨hostname, ?_⟩
  rw [h.caller] at hadmin
  rw [importRoute, importOffline, alone_bind, hr]
  cases r with
  | error e => cases hadmin
  | ok found =>
    obtain rfl := Option.some.inj hadmin
    dsimp only
    rw [h.signature, h.components, hhostname]
    simp only [Bool.not_true, Bool.false_eq_true, if_false]
    exact congrArg (Prog.alone · x) (if_neg h.named)

/-- **A request that does not get as far as the lookup** is refused, and leaves everything as it is. -/
theorem readable_or_refused (request : ImportRequest) (x : Alone Data DataWrite Env) :
    (∃ admin fingerprint weighted, Readable c x.view request admin fingerprint weighted) ∨
      (∀ a, ((importRoute c request).alone x).1 ≠ .ok a) ∧ ((importRoute c request).alone x).2.data = x.data := by
  obtain ⟨r, hr, hadmin⟩ := alone_requireAdmin request.2 x
  rw [importRoute, importOffline, alone_bind, hr]
  cases r with
  | error e => exact .inr ⟨(fun a h => by cases h), rfl⟩
  | ok found =>
    dsimp only
    split
    · exact .inr ⟨(fun a h => by cases h), rfl⟩
    · rename_i hsignature
      split
      · rename_i fingerprint hostname hfingerprint hhostname
        split
        · exact .inr ⟨(fun a h => by cases h), rfl⟩
        · rename_i hnamed
          cases hweighted : computeWeightedId c.identification fingerprint with
          | none =>
            rw [importPayload, alone_select, hweighted]
            exact .inr ⟨(fun a h => by cases h), rfl⟩
          | some weighted =>
            refine .inl ⟨found.2, fingerprint, weighted, hadmin.symm, by simpa using hsignature, hfingerprint, ?_,
              hnamed, hweighted⟩
            rw [hhostname]
            simp
      · exact .inr ⟨(fun a h => by cases h), rfl⟩

/-- **An accepted request** gets as far as the lookup. -/
theorem readable_of_ok {a : OfflineImportResponse} (h : ((importRoute c request).alone x).1 = .ok a) :
    ∃ admin fingerprint weighted, Readable c x.view request admin fingerprint weighted :=
  (readable_or_refused request x).resolve_right fun hrefused => hrefused.1 a h

theorem Readable.later {data' : Data} (h : Readable c data request admin fingerprint weighted)
    (hadmin : adminOf data' request.2 = some admin) :
    Readable c data' request admin fingerprint weighted :=
  ⟨hadmin, h.signature, h.components, h.hostname, h.named, h.computed⟩

/-- **What serving a request does.** -/
theorem Readable.imports (h : Readable c s.data request admin fingerprint weighted) (answers : ℕ → Env) :
    Imports c.importing request.1.payload (orgOf c s.data admin request, weighted, fingerprint)
      ⟨s.data, [], s.drawn, answers⟩ (serveAlone (importRoute c) s request answers).1
      (serveAlone (importRoute c) s request answers).2.data
      (foundBy c.identification s.data (orgOf c s.data admin request) (namedBy c request) fingerprint weighted
        answers) := by
  obtain ⟨hostname, halone⟩ := Readable.alone (x := ⟨s.data, [], s.drawn, answers⟩) h
  have himports := imports_importPayload (x := ⟨s.data, [], s.drawn, answers⟩) c.identification c.importing
    admin request.1.payload (namedBy c request) hostname h.computed
  rw [← halone] at himports
  exact himports

end Requests

/-! ## Again and again -/

/-- The request comes again and again: the answers, and what is left. -/
def importAgain (request : ImportRequest) : AtRest Data → List (ℕ → Env) →
    List (Except HttpError OfflineImportResponse) × AtRest Data
  | s, [] => ([], s)
  | s, answers :: rest =>
    let (response, s') := serveAlone (importRoute c) s request answers
    let (responses, t) := importAgain request s' rest
    (response :: responses, t)

/-- **What is expected** of an accepted import: again and again, it finds the same machine and creates
none. -/
def Repeatable (s : AtRest Data) (request : ImportRequest) : Prop :=
  ∀ answers a, (serveAlone (importRoute c) s request answers).1 = .ok a → ∀ again : List (ℕ → Env),
    let first := (serveAlone (importRoute c) s request answers).2
    let later := importAgain c request first again
    (∀ r ∈ later.1, ∃ b, r = .ok b ∧ b.isNew = false ∧ b.machineId = a.machineId) ∧
      later.2.data.machines.keys.length = first.data.machines.keys.length

/-- **The condition**: a machine has the id that the payload names; or the payload has a fingerprint, and a
machine has the id of it or at most one cannot be told from it; or the payload has no fingerprint and names
the id of an empty one. -/
def FoundAgain (data : Data) (request : ImportRequest) : Prop :=
  ∀ admin ∈ adminOf data request.2, ∀ fingerprint ∈ payloadFingerprint request.1.payload,
    ∀ weighted ∈ computeWeightedId c.identification fingerprint,
      let org := orgOf c data admin request
      (namedBy c request = "" ∨ exactMatch data org (namedBy c request) = some none) →
        if fingerprint = [] then namedBy c request = weighted
        else exactMatch data org weighted = some none → ∀ x ∈ machinesOf data org, ∀ y ∈ machinesOf data org,
          c.identification.isSameMachine fingerprint x.2.fingerprint ≠ some false →
          c.identification.isSameMachine fingerprint y.2.fingerprint ≠ some false → x = y

section Again

variable {c} {s t : AtRest Data} {data data' : Data} {request : ImportRequest} {admin : User}
  {fingerprint : Fingerprint} {weighted machineUuid : String} {orgId id : Uuid}

theorem exactId_newMachine {row : Machine} (hget : data.machines.get id = none)
    (hface : row.face = (orgId, weighted, fingerprint)) (machineUuid : String) :
    exactId (Applies.apply (DataWrite.newMachine id row) data) orgId machineUuid =
      if machineUuid = weighted ∧ exactId data orgId machineUuid = some none then some (some id)
      else if machineUuid = weighted then none else exactId data orgId machineUuid := by
  obtain ⟨horg, hrest⟩ := Prod.mk.inj hface
  obtain ⟨huuid, -⟩ := Prod.mk.inj hrest
  have hrows : machinesWith (Applies.apply (DataWrite.newMachine id row) data) orgId machineUuid =
      machinesWith data orgId machineUuid ++ if machineUuid = weighted then [(id, row)] else [] := by
    rw [machinesWith, machinesWith, machines_newMachine, Table.rowsWhere_insert hget]
    simp [horg, huuid, eq_comm]
  rw [exactId, exactMatch, hrows, exactId, exactMatch]
  by_cases hnamed : machineUuid = weighted
  · rw [if_pos hnamed]
    cases machinesWith data orgId machineUuid with
    | nil => simp [scalarOneOrNone, hnamed]
    | cons p rest => cases rest <;> simp [scalarOneOrNone, hnamed]
  · rw [if_neg hnamed, List.append_nil, if_neg (fun h => hnamed h.1), if_neg hnamed]

/-- **A machine that is found in every order** is found again and again. -/
theorem importAgain_of_found (hreadable : Readable c s.data request admin fingerprint weighted)
    (hstorable : Storable c.importing request.1.payload)
    (hfound : ∀ answers, foundBy c.identification s.data (orgOf c s.data admin request) (namedBy c request)
      fingerprint weighted answers = some (some id)) (again : List (ℕ → Env)) :
    (∀ r ∈ (importAgain c request s again).1, ∃ b, r = .ok b ∧ b.isNew = false ∧ b.machineId = id) ∧
      (importAgain c request s again).2.data.machines.keys.length = s.data.machines.keys.length := by
  induction again generalizing s with
  | nil => exact ⟨List.forall_mem_nil _, rfl⟩
  | cons answers rest ih =>
    have himports := hreadable.imports answers
    rw [hfound] at himports
    obtain ⟨b, hb⟩ := himports.1.mpr hstorable
    obtain ⟨hid, hnew, hsame⟩ := himports.2 b hb
    have hsame' : SameFaces s.data (serveAlone (importRoute c) s request answers).2.data := hsame
    obtain ⟨hrest, hlength⟩ := ih (hreadable.later (hsame'.adminOf hreadable.caller)) fun answers' => by
      rw [orgOf, hsame'.importOrg, hsame'.foundBy]
      exact hfound answers'
    refine ⟨List.forall_mem_cons.mpr ⟨⟨b, hb, hnew, hid⟩, hrest⟩, hlength.trans ?_⟩
    rw [hsame'.keys]

theorem exactId_eq_some_none : exactId data orgId machineUuid = some none ↔
    exactMatch data orgId machineUuid = some none := by
  rw [exactId]
  rcases exactMatch data orgId machineUuid with _ | _ | x <;> simp

theorem namesNone_iff : (if machineUuid = "" then some none else exactId data orgId machineUuid) = some none ↔
    machineUuid = "" ∨ exactMatch data orgId machineUuid = some none := by
  split_ifs with hempty
  · exact iff_of_true rfl (.inl hempty)
  · rw [exactId_eq_some_none, or_iff_right hempty]

theorem FoundAgain.foundBy_eq_foundBy (h : FoundAgain c data request)
    (hreadable : Readable c data request admin fingerprint weighted) (answers answers' : ℕ → Env) :
    foundBy c.identification data (orgOf c data admin request) (namedBy c request) fingerprint weighted answers =
      foundBy c.identification data (orgOf c data admin request) (namedBy c request) fingerprint weighted
        answers' := by
  have hcond := h admin hreadable.caller fingerprint hreadable.components weighted hreadable.computed
  rw [foundBy_eq, foundBy_eq]
  cases hnamed : if namedBy c request = "" then some none
      else exactId data (orgOf c data admin request) (namedBy c request) with
  | none => rfl
  | some named =>
    cases named with
    | some id => rfl
    | none =>
      dsimp only
      split_ifs with hempty
      · rfl
      · have honly := hcond (namesNone_iff.mp hnamed)
        rw [if_neg hempty] at honly
        cases hweighted : exactId data (orgOf c data admin request) weighted with
        | none => rfl
        | some found =>
          cases found with
          | some id => rfl
          | none =>
            refine congrArg (Option.map (Option.map Prod.fst)) (firstSame_congr ?_ ?_)
            · intro x
              rw [mem_inOrder, mem_inOrder]
            · intro x hx hsame y hy hother
              exact honly (exactId_eq_some_none.mp hweighted) y (mem_inOrder.mp hy) x (mem_inOrder.mp hx) hother
                (by rw [hsame]; simp)

variable {answers : ℕ → Env}

theorem of_foundBy_none {I : Identification}
    (h : foundBy I data orgId machineUuid fingerprint weighted answers = some none) :
    (machineUuid ≠ "" → exactId data orgId machineUuid = some none) ∧
      (fingerprint ≠ [] → exactId data orgId weighted = some none) := by
  rw [foundBy_eq] at h
  cases hnamed : if machineUuid = "" then some none else exactId data orgId machineUuid with
  | none =>
    rw [hnamed] at h
    cases h
  | some named =>
    rw [hnamed] at h
    cases named with
    | some id => cases h
    | none =>
      refine ⟨fun hne => by rwa [if_neg hne] at hnamed, fun hne => ?_⟩
      dsimp only at h
      rw [if_neg hne] at h
      rcases hweighted : exactId data orgId weighted with _ | _ | id
      · rw [hweighted] at h
        cases h
      · rfl
      · rw [hweighted] at h
        cases h

/-- **What is created is found** in every order. -/
theorem FoundAgain.found_of_created (h : FoundAgain c data request)
    (hreadable : Readable c data request admin fingerprint weighted) (hget : data.machines.get id = none)
    (hnone : foundBy c.identification data (orgOf c data admin request)
      (namedBy c request) fingerprint weighted answers = some none)
    (hcreated : Created id (orgOf c data admin request, weighted, fingerprint) data data')
    (answers' : ℕ → Env) : foundBy c.identification data' (orgOf c data admin request) (namedBy c request)
      fingerprint weighted answers' = some (some id) := by
  have hcond := h admin hreadable.caller fingerprint hreadable.components weighted hreadable.computed
  obtain ⟨row, hface, hsame⟩ := hcreated
  obtain ⟨hnamed, hweighted⟩ := of_foundBy_none hnone
  rw [hsame.foundBy, foundBy_eq, exactId_newMachine hget hface, exactId_newMachine hget hface]
  by_cases hempty : fingerprint = []
  · -- the payload names the id that the machine has been created with
    have hne : namedBy c request ≠ "" := fun heq => hreadable.named ⟨heq, hempty⟩
    have hid := hcond (.inr (exactId_eq_some_none.mp (hnamed hne)))
    rw [if_pos hempty] at hid
    rw [if_neg hne, if_pos ⟨hid, hnamed hne⟩]
  · have hfound : weighted = weighted ∧ exactId data (orgOf c data admin request) weighted = some none :=
      ⟨rfl, hweighted hempty⟩
    by_cases hne : namedBy c request = ""
    · rw [if_pos hne]
      dsimp only
      rw [if_neg hempty, if_pos hfound]
    · rw [if_neg hne, hnamed hne]
      by_cases hid : namedBy c request = weighted
      · rw [if_pos ⟨hid, rfl⟩]
      · rw [if_neg (fun h => hid h.1), if_neg hid]
        dsimp only
        rw [if_neg hempty, if_pos hfound]

theorem Created.adminOf (h : Created id (orgId, weighted, fingerprint) data data') {caller : Option Uuid}
    (hadmin : adminOf data caller = some admin) : Fleet.adminOf data' caller = some admin := by
  obtain ⟨row, -, hsame⟩ := h
  exact hsame.adminOf hadmin

theorem Created.orgOf (h : Created id (orgId, weighted, fingerprint) data data') :
    orgOf c data' admin request = Fleet.orgOf c data admin request := by
  obtain ⟨row, -, hsame⟩ := h
  exact hsame.importOrg c.importing admin request.1.payload

/-- **Under the condition** an accepted import is repeatable. -/
theorem FoundAgain.repeatable (h : FoundAgain c s.data request) (hnew : s.data.machines.get s.drawn = none) :
    Repeatable c s request := by
  intro answers a ha again
  obtain ⟨admin, fingerprint, weighted, hreadable⟩ :=
    readable_of_ok (x := ⟨s.data, [], s.drawn, answers⟩) ha
  have himports := hreadable.imports answers
  rcases hfound : foundBy c.identification s.data (orgOf c s.data admin request) (namedBy c request) fingerprint
    weighted answers with _ | _ | id
  · rw [hfound] at himports
    exact absurd ha (himports a)
  · rw [hfound] at himports
    obtain ⟨hid, -, hcreated⟩ := himports.2 a ha
    have hid' : a.machineId = s.drawn := hid
    have hcreated' : Created s.drawn (orgOf c s.data admin request, weighted, fingerprint) s.data
        (serveAlone (importRoute c) s request answers).2.data := hcreated
    rw [hid']
    refine importAgain_of_found (hreadable.later (hcreated'.adminOf hreadable.caller))
      (himports.1.mp ⟨a, ha⟩) (fun answers' => ?_) again
    rw [hcreated'.orgOf]
    exact h.found_of_created hreadable hnew hfound hcreated' answers'
  · rw [hfound] at himports
    obtain ⟨rfl, -, hsame⟩ := himports.2 a ha
    have hsame' : SameFaces s.data (serveAlone (importRoute c) s request answers).2.data := hsame
    refine importAgain_of_found (hreadable.later (hsame'.adminOf hreadable.caller)) (himports.1.mp ⟨a, ha⟩)
      (fun answers' => ?_) again
    rw [orgOf, hsame'.importOrg, hsame'.foundBy]
    exact (h.foundBy_eq_foundBy hreadable answers' answers).trans hfound

theorem Repeatable.second (h : Repeatable c s request) {a : OfflineImportResponse}
    (ha : (serveAlone (importRoute c) s request answers).1 = .ok a) (answers' : ℕ → Env) :
    ∃ b, (serveAlone (importRoute c) (serveAlone (importRoute c) s request answers).2 request answers').1 =
      .ok b ∧ b.isNew = false ∧ b.machineId = a.machineId :=
  (h answers a ha [answers']).1 _ List.mem_cons_self

/-- What a candidate that comes first leads to: it is taken, or it cannot be compared. -/
theorem firstSame_of_first {I : Identification} {xs : List (Uuid × Machine)} {x : Uuid × Machine}
    (hkeys : (xs.map Prod.fst).Nodup) (hx : x ∈ xs)
    (hsame : I.isSameMachine fingerprint x.2.fingerprint ≠ some false) :
    ∃ rank : Uuid → ℕ, ∀ id, (firstSame I fingerprint (inOrder rank xs)).map (Option.map Prod.fst) =
      some (some id) → id = x.1 := by
  obtain ⟨rank, rest, hrank⟩ := exists_inOrder_cons hkeys hx
  refine ⟨rank, fun id hid => ?_⟩
  rw [hrank, firstSame] at hid
  cases hx' : I.isSameMachine fingerprint x.2.fingerprint with
  | none =>
    rw [hx'] at hid
    cases hid
  | some same =>
    rw [hx'] at hid
    cases same with
    | true => exact (Option.some.inj (Option.some.inj hid)).symm
    | false => exact absurd hx' hsame

/-- **A repeatable import** that has been accepted meets the condition. -/
theorem Repeatable.foundAgain (h : Repeatable c s request) (hnew : s.data.machines.get s.drawn = none)
    (haccepted : ∃ answers a, (serveAlone (importRoute c) s request answers).1 = .ok a) :
    FoundAgain c s.data request := by
  obtain ⟨answers, a, ha⟩ := haccepted
  obtain ⟨admin, fingerprint, weighted, hreadable⟩ :=
    readable_of_ok (x := ⟨s.data, [], s.drawn, answers⟩) ha
  have himports := hreadable.imports answers
  intro admin' hadmin fingerprint' hfingerprint weighted' hweighted org hnamed
  obtain rfl := Option.some.inj (hreadable.caller.symm.trans hadmin)
  obtain rfl := Option.some.inj (hreadable.components.symm.trans hfingerprint)
  obtain rfl := Option.some.inj (hreadable.computed.symm.trans hweighted)
  have hfound := @foundBy_eq org c.identification s.data (namedBy c request) fingerprint weighted answers
  rw [namesNone_iff.mpr hnamed] at hfound
  dsimp only at hfound
  split_ifs at hfound ⊢ with hempty
  · -- the second import creates another machine, unless it finds the first by the name
    by_contra hid
    have himports' : Imports c.importing request.1.payload (org, weighted, fingerprint)
        ⟨s.data, [], s.drawn, answers⟩ _ _ (some none) := hfound ▸ himports
    have hcreated : Created s.drawn (org, weighted, fingerprint) s.data
        (serveAlone (importRoute c) s request answers).2.data := (himports'.2 a ha).2.2
    obtain ⟨b, hb, hnot, -⟩ := h.second ha answers
    have hsecond := (hreadable.later (hcreated.adminOf hreadable.caller)).imports
      (s := (serveAlone (importRoute c) s request answers).2) answers
    have hagain : foundBy c.identification (serveAlone (importRoute c) s request answers).2.data org
        (namedBy c request) fingerprint weighted answers = some none := by
      obtain ⟨row, hface, hsame⟩ := hcreated
      have hne : namedBy c request ≠ "" := fun heq => hreadable.named ⟨heq, hempty⟩
      have hnone := exactId_eq_some_none.mpr (hnamed.resolve_left hne)
      rw [hsame.foundBy, foundBy_eq, exactId_newMachine hnew hface, if_neg hne, if_neg fun h => hid h.1,
        if_neg hid, hnone]
      exact if_pos hempty
    rw [hcreated.orgOf, hagain] at hsecond
    rw [(hsecond.2 b hb).2.1] at hnot
    cases hnot
  · -- of two candidates, the second import takes the one that the first has not taken
    intro hexact x hx y hy hxsame hysame
    rw [exactId_eq_some_none.mpr hexact] at hfound
    dsimp only at hfound
    rcases hfirst : firstSame c.identification fingerprint
        (inOrder (answers 0).rank (machinesOf s.data org)) with _ | _ | z
    · rw [hfirst] at hfound
      exact absurd ha ((hfound ▸ himports : Imports c.importing request.1.payload (org, weighted, fingerprint)
        ⟨s.data, [], s.drawn, answers⟩ _ _ none) a)
    · exact absurd (firstSame_eq_none.mp hfirst x (mem_inOrder.mpr hx)) hxsame
    · rw [hfirst] at hfound
      obtain ⟨hid, -, hsame⟩ := (hfound ▸ himports : Imports c.importing request.1.payload
        (org, weighted, fingerprint) ⟨s.data, [], s.drawn, answers⟩ _ _ (some (some z.1))).2 a ha
      have hsame' : SameFaces s.data (serveAlone (importRoute c) s request answers).2.data := hsame
      have htaken : ∀ w ∈ machinesOf s.data org,
          c.identification.isSameMachine fingerprint w.2.fingerprint ≠ some false → z.1 = w.1 := by
        intro w hw hwsame
        obtain ⟨rank, hrank⟩ := firstSame_of_first (s.data.machines.nodup_rowsWhere _) hw hwsame
        let answers' : ℕ → Env := fun _ => ⟨0, rank, 0, none⟩
        obtain ⟨b, hb, hnot, hbid⟩ := h.second ha answers'
        have hsecond := (hreadable.later (hsame'.adminOf hreadable.caller)).imports
          (s := (serveAlone (importRoute c) s request answers).2) answers'
        have hagain : foundBy c.identification s.data org (namedBy c request) fingerprint weighted answers' =
            (firstSame c.identification fingerprint (inOrder rank (machinesOf s.data org))).map
              (Option.map Prod.fst) := by
          rw [foundBy_eq, namesNone_iff.mpr hnamed, exactId_eq_some_none.mpr hexact]
          exact if_neg hempty
        rw [orgOf, hsame'.importOrg, hsame'.foundBy, ← orgOf] at hsecond
        change Imports _ _ _ _ _ _ (foundBy c.identification s.data org (namedBy c request) fingerprint weighted
          answers') at hsecond
        rw [hagain] at hsecond
        rcases hthen : (firstSame c.identification fingerprint (inOrder rank (machinesOf s.data org))).map
            (Option.map Prod.fst) with _ | _ | i
        · rw [hthen] at hsecond
          exact absurd hb (hsecond b)
        · rw [hthen] at hsecond
          rw [(hsecond.2 b hb).2.1] at hnot
          cases hnot
        · rw [hthen] at hsecond
          rw [← hrank i hthen, ← (hsecond.2 b hb).1, hbid, hid]
      exact List.inj_on_of_nodup_map (s.data.machines.nodup_rowsWhere _) hx hy
        ((htaken x hx hxsame).symm.trans (htaken y hy hysame))

/-- **When a file can be imported again and again**: an accepted import is repeatable if and only if it meets
the condition. -/
theorem repeatable_iff (c : FleetSettings) (s : AtRest Data) (request : ImportRequest)
    (hnew : s.data.machines.get s.drawn = none)
    (haccepted : ∃ answers a, (serveAlone (importRoute c) s request answers).1 = .ok a) :
    Repeatable c s request ↔ FoundAgain c s.data request :=
  ⟨fun h => h.foundAgain hnew haccepted, fun h => h.repeatable hnew⟩

end Again

/-! ## A file that only names its machine -/

/-- A file that names a machine, imported by the administrator. -/
def namedFile (machineUuid : String) (fingerprint : Fingerprint) : ImportRequest :=
  (⟨[("machine_uuid", .str machineUuid), ("fingerprint", .obj fingerprint)], "", ""⟩, some 0)

theorem accepted_of_isSome (c : FleetSettings) (s : AtRest Data) (request : ImportRequest) (answers : ℕ → Env)
    (h : (serveAlone (importRoute c) s request answers).1.toOption.isSome = true) :
    ∃ a, (serveAlone (importRoute c) s request answers).1 = .ok a := by
  cases hr : (serveAlone (importRoute c) s request answers).1 with
  | error e =>
    rw [hr] at h
    cases h
  | ok a => exact ⟨a, rfl⟩

/-- **A file without a fingerprint** creates another machine when it is imported again. -/
theorem named_file_creates_again : ¬ ∀ (c : FleetSettings) (s : AtRest Data) (request : ImportRequest),
    s.data.machines.get s.drawn = none →
    (∃ answers a, (serveAlone (importRoute c) s request answers).1 = .ok a) → Repeatable c s request := by
  intro h
  obtain ⟨a, ha⟩ := accepted_of_isSome exampleFleet ⟨adminData, 0⟩ (namedFile "4C4C4544" [])
    (fun _ => exampleAnswer) (by decide +kernel)
  have hagain : ((importAgain exampleFleet (namedFile "4C4C4544" []) (serveAlone (importRoute exampleFleet)
      ⟨adminData, 0⟩ (namedFile "4C4C4544" []) fun _ => exampleAnswer).2 [fun _ => exampleAnswer]).1.map
        fun r => r.toOption.map OfflineImportResponse.isNew) = [some true] := by decide +kernel
  obtain ⟨b, hb, hnot, -⟩ := (h exampleFleet ⟨adminData, 0⟩ (namedFile "4C4C4544" []) rfl ⟨_, a, ha⟩ _ a ha
    [fun _ => exampleAnswer]).1 _ List.mem_cons_self
  have hnew : some b.isNew = some true := by
    have hhead := List.head_eq_of_cons_eq hagain
    rw [hb] at hhead
    exact hhead
  rw [hnot] at hnew
  cases hnew

theorem repeatable_iff_fingerprint :
    Repeatable exampleFleet ⟨adminData, 0⟩ (namedFile "" [("smbios_uuid", .str "4C4C4544")]) ↔
      FoundAgain exampleFleet adminData (namedFile "" [("smbios_uuid", .str "4C4C4544")]) :=
  repeatable_iff exampleFleet ⟨adminData, 0⟩ _ rfl 
    ⟨_, accepted_of_isSome _ _ _ (fun _ => exampleAnswer) (by decide +kernel)⟩

end AssetInventory.Fleet

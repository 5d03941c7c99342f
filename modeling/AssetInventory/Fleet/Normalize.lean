import AssetInventory.Fleet.Snapshots

/-!
# What the server derives of a report

Agents of several versions report, under several names, and the server brings what they report into columns.

* `deriveSecurityFields`, `deriveV4SecurityFields`: the two readings of the security of a machine.
* `protection_readings`: for which reports the readings of the antivirus products agree.
* `softwareRows`: the rows for the installed software.
* `softwareReplaced_iff`: for which lists the rows have different names, and all the names that were sent.

Texts are brought into lower case by a parameter; in the database that is `lower`.
-/

namespace AssetInventory.Fleet

open PyJson PyTime Orm RowStore ReadCommitted Server

/-! ## Security -/

section Security

variable (lower : String → String)

/-- What a loop over the value sees; `none` is a `TypeError`. -/
def itemsOf : Json → Option (List Json)
  | .arr xs => some xs
  | .obj kvs => some (kvs.map fun kv => .str kv.1)
  | .str s => some (s.toList.map fun c => .str (String.singleton c))
  | _ => none

/-- `None`, `True` or `False`. -/
def flag : Option Bool → Json
  | none => .null
  | some b => .bool b

/-- Whether a product is enabled, by its `enabled` or else by its `status`. -/
def productEnabled (av : List (String × Json)) : Json :=
  let enabled := getD av "enabled" .null
  if enabled = .null ∧ getD av "status" .null ≠ .null then
    .bool (decide (getD av "status" .null = .str "enabled"))
  else enabled

/-- `av_enabled` after the loop over the products. -/
def antivirusEnabled : Option Bool → List Json → Option Bool
  | avEnabled, [] => avEnabled
  | avEnabled, av :: avs =>
    match av.entries? with
    | none => antivirusEnabled avEnabled avs
    | some av =>
      if productEnabled av = .bool true then some true
      else if productEnabled av = .bool false ∧ avEnabled = none then
        antivirusEnabled (some false) avs
      else antivirusEnabled avEnabled avs

/-- `av_up_to_date`. -/
def antivirusUpToDate (avs : List Json) : Option Bool :=
  let vals := (avs.filterMap Json.entries?).filterMap (lookup "upToDate")
  if vals = [] then none else some (vals.all fun v => decide (v = .bool true))

def updateStatusOn : List String :=
  ["up-to-date", "up to date", "uptodate", "pending", "checking", "enabled", "on", "active"]

def updateStatusOff : List String := ["disabled", "off", "never", "paused", "stopped"]

/-- `update_enabled`. -/
def windowsUpdateEnabled : Json → Option Bool
  | .str text =>
    let s := lower (strip text)
    if strip text = "" then none
    else if s ∈ updateStatusOn then some true
    else if s ∈ updateStatusOff then some false
    else none
  | _ => none

/-- `derive_security_fields`; `none` is an exception. -/
def deriveSecurityFields (security : Json) : Option (List (String × Json)) := do
  let sec ← (security.orElse (.obj [])).entries?
  let antivirus := (getD sec "antivirus" .null).orElse (.arr [])
  let avs ← itemsOf antivirus
  let updateStatus := getD sec "windows_update_status" .null
  return [("antivirus", antivirus.orElse .null),
    ("antivirus_enabled", flag (antivirusEnabled none avs)),
    ("antivirus_up_to_date", flag (antivirusUpToDate avs)),
    ("windows_update_status", updateStatus),
    ("windows_update_enabled", flag (windowsUpdateEnabled lower updateStatus)),
    ("bitlocker", getD sec "bitlocker" .null),
    ("firewall_enabled", getD sec "firewall_enabled" .null),
    ("uac_enabled", getD sec "uac_enabled" .null),
    ("secure_boot_enabled", getD sec "secure_boot_enabled" .null),
    ("rdp_enabled", getD sec "rdp_enabled" .null),
    ("usb_storage_blocked", getD sec "usb_storage_blocked" .null)]

/-- `x or {}`, and `{}` for what is no `dict`. -/
def dictOr (x : Json) : List (String × Json) := (if x.truthy then x.entries? else none).getD []

/-- `update_status`; `none` is an exception. -/
def v4UpdateStatus (sec : List (String × Json)) : Option Json :=
  let status := getD (dictOr (getD sec "update" .null)) "status" .null
  let legacy := getD sec "windows_update_status" .null
  if status.truthy then some status
  else if legacy.truthy then
    match legacy with
    | .str text =>
      let lu := lower (strip text)
      if lu ∈ ["up-to-date", "up to date", "uptodate"] then some (.str "up-to-date")
      else if lu = "outdated" then some (.str "outdated")
      else some (.str "unknown")
    | _ => none
  else some status

/-- `ep_enabled`. -/
def v4ProtectionEnabled (sec : List (String × Json)) : Option Bool :=
  match getD sec "endpoint_protection" .null with
  | .arr xs => some (decide (xs ≠ []))
  | _ =>
    match getD sec "antivirus" .null with
    | .arr xs => some (decide (xs ≠ []))
    | _ => none

/-- `derive_v4_security_fields`; `none` is an exception. -/
def deriveV4SecurityFields (security : Json) : Option (List (String × Json)) := do
  let sec := dictOr security
  let update := dictOr (getD sec "update" .null)
  let remote := dictOr (getD sec "remote_access" .null)
  let enc := dictOr (getD sec "disk_encryption" .null)
  let updateStatus ← v4UpdateStatus lower sec
  let remoteDesktop := getD remote "remote_desktop_enabled" .null
  let bitlocker := getD sec "bitlocker" .null
  let legacyEncryption := decide (getD enc "enabled" .null = .null ∧ bitlocker ≠ .null)
  return [("update_status", updateStatus),
    ("update_enabled", getD update "enabled" .null),
    ("updates_pending", getD update "pending_count" .null),
    ("endpoint_protection_enabled", flag (v4ProtectionEnabled sec)),
    ("disk_encryption_enabled",
      if legacyEncryption then .bool (decide (bitlocker = .str "on")) else getD enc "enabled" .null),
    ("disk_encryption_technology",
      if legacyEncryption then .str "bitlocker" else getD enc "technology" .null),
    ("ssh_enabled", getD remote "ssh_enabled" .null),
    ("remote_desktop_enabled",
      if remoteDesktop = .null then getD sec "rdp_enabled" .null else remoteDesktop)]

/-! ## The two readings of the antivirus products -/

/-- **The flat schema**: a list of products or none, and nothing under the names of the later schema. -/
structure Flat (sec : List (String × Json)) : Prop where
  endpoint : getD sec "endpoint_protection" .null = .null
  antivirus : getD sec "antivirus" .null = .null ∨ ∃ avs, getD sec "antivirus" .null = .arr avs ∧
    ∀ av ∈ avs, ∃ product, av = .obj product
  update : getD sec "update" .null = .null
  status : getD sec "windows_update_status" .null = .null ∨
    ∃ text, getD sec "windows_update_status" .null = .str text

/-- A field of what has been derived. -/
def derived (fields : Option (List (String × Json))) (field : String) : Option Json :=
  fields.bind (lookup field)

/-- **The readings agree**: a machine that the first reading counts as protected or as unprotected, the second
counts so too. -/
def Agree (sec : List (String × Json)) : Prop :=
  ∀ b, derived (deriveSecurityFields lower (.obj sec)) "antivirus_enabled" = some (.bool b) →
    derived (deriveV4SecurityFields lower (.obj sec)) "endpoint_protection_enabled" = some (.bool b)

/-- The products of a report. -/
def products (sec : List (String × Json)) : List (List (String × Json)) :=
  match getD sec "antivirus" .null with
  | .arr avs => avs.filterMap Json.entries?
  | _ => []

variable {lower} {sec : List (String × Json)}

/-- **The loop over the products**: one that is enabled decides, or else one that is not. -/
theorem antivirusEnabled_eq (avEnabled : Option Bool) (avs : List Json) :
    antivirusEnabled avEnabled avs =
      if ∃ av ∈ avs.filterMap Json.entries?, productEnabled av = .bool true then some true
      else if ∃ av ∈ avs.filterMap Json.entries?, productEnabled av = .bool false then
        some (avEnabled.getD false) else avEnabled := by
  induction avs generalizing avEnabled with
  | nil => simp [antivirusEnabled]
  | cons av avs ih =>
    rw [antivirusEnabled]
    cases hentries : av.entries? with
    | none =>
      rw [List.filterMap_cons_none hentries]
      exact ih avEnabled
    | some product =>
      rw [List.filterMap_cons_some hentries]
      dsimp only
      by_cases hon : productEnabled product = .bool true
      · rw [if_pos hon, if_pos ⟨product, List.mem_cons_self, hon⟩]
      have hothers : (∃ av ∈ product :: avs.filterMap Json.entries?, productEnabled av = .bool true) ↔
          ∃ av ∈ avs.filterMap Json.entries?, productEnabled av = .bool true := by
        rw [List.exists_mem_cons_iff]
        exact or_iff_right hon
      by_cases hoff : productEnabled product = .bool false ∧ avEnabled = none
      · have hhead : ∃ av ∈ product :: avs.filterMap Json.entries?, productEnabled av = .bool false :=
          ⟨product, List.mem_cons_self, hoff.1⟩
        rw [if_neg hon, if_pos hoff, ih, if_congr hothers rfl rfl, if_pos hhead, hoff.2]
        simp
      · rw [if_neg hon, if_neg hoff, ih, if_congr hothers rfl rfl]
        by_cases hfalse : productEnabled product = .bool false
        · obtain ⟨b, rfl⟩ := Option.ne_none_iff_exists'.mp fun hnone => hoff ⟨hfalse, hnone⟩
          simp [hfalse]
        · simp only [List.exists_mem_cons_iff, hfalse, false_or]

theorem Flat.products_eq (hflat : Flat sec) :
    ∃ avs, (getD sec "antivirus" .null).orElse (.arr []) = .arr avs ∧
      avs.filterMap Json.entries? = products sec := by
  rcases hflat.antivirus with hnone | ⟨avs, havs, -⟩
  · exact ⟨[], by rw [hnone]; rfl, by rw [products, hnone]; rfl⟩
  · refine ⟨avs, ?_, by rw [products, havs]⟩
    rw [havs]
    cases avs with
    | nil => rfl
    | cons av avs => rfl

/-- **What the first reading says of a flat report.** -/
theorem Flat.antivirusEnabled (hflat : Flat sec) :
    derived (deriveSecurityFields lower (.obj sec)) "antivirus_enabled" =
      some (if ∃ av ∈ products sec, productEnabled av = .bool true then .bool true
        else if ∃ av ∈ products sec, productEnabled av = .bool false then .bool false
        else .null) := by
  obtain ⟨avs, havs, hproducts⟩ := hflat.products_eq
  have hentries : ((Json.obj sec).orElse (.obj [])).entries? = some sec := by
    cases sec <;> rfl
  have hloop := antivirusEnabled_eq none avs
  rw [hproducts] at hloop
  simp only [derived, deriveSecurityFields, hentries, havs, itemsOf, Option.bind_eq_bind,
    Option.bind_some, Option.pure_def, hloop, lookup_cons, lookup_nil, String.reduceEq, if_false,
    if_true, Option.or_none, Option.none_or, Option.some.injEq]
  split_ifs <;> rfl

/-- **What the second reading says of a flat report with products.** -/
theorem Flat.protectionEnabled (hflat : Flat sec) (hproducts : products sec ≠ []) :
    derived (deriveV4SecurityFields lower (.obj sec)) "endpoint_protection_enabled" =
      some (.bool true) := by
  obtain ⟨avs, havs, hne⟩ : ∃ avs, getD sec "antivirus" .null = .arr avs ∧ avs ≠ [] := by
    unfold products at hproducts
    split at hproducts
    · rename_i avs havs
      exact ⟨avs, havs, fun hnil => hproducts (by rw [hnil]; rfl)⟩
    · exact absurd rfl hproducts
  have hdict : dictOr (.obj sec) = sec := by
    cases sec <;> rfl
  have hupdate : dictOr (getD sec "update" .null) = [] := by
    rw [hflat.update]
    rfl
  obtain ⟨status, hstatus⟩ : ∃ status, v4UpdateStatus lower sec = some status := by
    rcases hflat.status with hnone | ⟨text, htext⟩
    · exact ⟨.null, by simp [v4UpdateStatus, hupdate, hnone]; rfl⟩
    · simp only [v4UpdateStatus, hupdate, htext]
      split_ifs <;> exact ⟨_, rfl⟩
  simp only [derived, deriveV4SecurityFields, hdict, hstatus, Option.bind_eq_bind,
    Option.bind_some, Option.pure_def, lookup_cons, lookup_nil, String.reduceEq, if_false,
    if_true, Option.or_none, Option.none_or, Option.some.injEq, v4ProtectionEnabled, hflat.endpoint,
    havs, flag]
  simp [hne]

/-- **When the readings agree.**  A list of products counts as protection, whatever their states are; the
readings differ if one of the products is disabled and none is enabled. -/
theorem protection_readings (hflat : Flat sec) :
    (∀ b, derived (deriveSecurityFields lower (.obj sec)) "antivirus_enabled" = some (.bool b) →
      derived (deriveV4SecurityFields lower (.obj sec)) "endpoint_protection_enabled" =
        some (.bool true)) ∧
    (Agree lower sec ↔ (∃ av ∈ products sec, productEnabled av = .bool true) ∨
      ∀ av ∈ products sec, productEnabled av ≠ .bool false) := by
  have hprotected : ∀ b,
      derived (deriveSecurityFields lower (.obj sec)) "antivirus_enabled" = some (.bool b) →
      derived (deriveV4SecurityFields lower (.obj sec)) "endpoint_protection_enabled" =
        some (.bool true) := by
    intro b hb
    refine hflat.protectionEnabled fun hnil => ?_
    rw [hflat.antivirusEnabled, hnil] at hb
    simp at hb
  refine ⟨hprotected, ?_⟩
  by_cases hon : ∃ av ∈ products sec, productEnabled av = .bool true
  · have hfirst := @Flat.antivirusEnabled lower sec hflat
    rw [if_pos hon] at hfirst
    refine iff_of_true (fun b hb => ?_) (.inl hon)
    rw [hprotected b hb, ← hb, hfirst]
  by_cases hoff : ∃ av ∈ products sec, productEnabled av = .bool false
  · have hfirst := @Flat.antivirusEnabled lower sec hflat
    rw [if_neg hon, if_pos hoff] at hfirst
    refine iff_of_false (fun hagree => ?_) ?_
    · have hsecond := hagree false hfirst
      rw [hprotected false hfirst] at hsecond
      simp at hsecond
    · obtain ⟨av, hav, hfalse⟩ := hoff
      rintro (hex | hall)
      · exact hon hex
      · exact hall av hav hfalse
  · refine iff_of_true (fun b hb => ?_) (.inr fun av hav hfalse => hoff ⟨av, hav, hfalse⟩)
    rw [hflat.antivirusEnabled, if_neg hon, if_neg hoff] at hb
    simp at hb

/-- A report of one product, which is disabled. -/
def defenderOff : List (String × Json) :=
  [("antivirus", .arr [.obj [("name", .str "Windows Defender"), ("enabled", .bool false)]])]

theorem flat_defenderOff : Flat defenderOff :=
  ⟨by decide, .inr ⟨_, rfl, by simp⟩, by decide, .inl (by decide)⟩

theorem protection_readings_defenderOff :
    (∀ b, derived (deriveSecurityFields String.toLower (.obj defenderOff)) "antivirus_enabled" =
        some (.bool b) → derived (deriveV4SecurityFields String.toLower (.obj defenderOff))
        "endpoint_protection_enabled" = some (.bool true)) ∧ (Agree String.toLower defenderOff ↔
      (∃ av ∈ products defenderOff, productEnabled av = .bool true) ∨
        ∀ av ∈ products defenderOff, productEnabled av ≠ .bool false) :=
  protection_readings flat_defenderOff

/-- A machine whose only product is disabled counts as protected in the second reading. -/
theorem defenderOff_readings_differ : ¬ ∀ sec, Flat sec → Agree String.toLower sec := by
  intro h
  have hsecond := h defenderOff flat_defenderOff false (by decide)
  exact absurd hsecond (by decide)

end Security

/-! ## Installed software -/

section Software

/-- `(item.get("display_name") or item.get("name") or "").strip()`; `none` is an `AttributeError`. -/
def softwareName (item : List (String × Json)) : Option String :=
  match ((getD item "display_name" .null).orElse (getD item "name" .null)).orElse (.str "") with
  | .str name => some (strip name)
  | _ => none

/-- The columns of an item. -/
def softwareRow (item : List (String × Json)) (name : String) : List (String × Json) :=
  [("name", .str name), ("version", getD item "version" .null),
    ("publisher", getD item "publisher" .null), ("install_date", getD item "install_date" .null)]

/-- The loop over the items. -/
def softwareRowsOf : List Json → Option (List (List (String × Json)))
  | [] => some []
  | item :: items =>
    match item.entries? with
    | none => softwareRowsOf items
    | some item => do
      let name ← softwareName item
      let rows ← softwareRowsOf items
      return if name = "" then rows else softwareRow item name :: rows

/-- `software_rows`; `none` is an exception. -/
def softwareRows (installedSoftware : Option (List Json)) : Option (List (List (String × Json))) :=
  softwareRowsOf (installedSoftware.getD [])

/-- The functions that normalize, with `software_rows` for the software. -/
def Normalizers.withSoftwareRows (N : Normalizers) : Normalizers :=
  { N with softwareRows := fun installed => (Fleet.softwareRows installed).getD [] }

/-- The column `name` of a row of `machine_software`. -/
def MachineSoftware.name (row : MachineSoftware) : String :=
  match lookup "name" row.entry with
  | some (.str name) => name
  | _ => ""

variable (lower : String → String)

/-- What `uq_machine_software_machine_name` is about. -/
def MachineSoftware.key (row : MachineSoftware) : Uuid × String := (row.machineId, lower row.name)

/-- **The unique index**, without which a transaction is not committed. -/
def SoftwareIndex (data : Data) : Prop := (data.software.map (MachineSoftware.key lower)).Nodup

/-- The text of a value without the blanks around it. -/
def blankless : Json → String
  | .str text => strip text
  | _ => ""

/-- The name that an item sends: `display_name`, or `name` if that is blank. -/
def sentName (item : List (String × Json)) : String :=
  if blankless (getD item "display_name" .null) ≠ "" then blankless (getD item "display_name" .null)
  else blankless (getD item "name" .null)

/-- The items that are objects. -/
def objects (installedSoftware : Option (List Json)) : List (List (String × Json)) :=
  (installedSoftware.getD []).filterMap Json.entries?

/-- **What replacing the software of a machine is expected to do**: it raises no exception, it leaves the
unique index intact, and every name that was sent is there afterwards. -/
def SoftwareReplaced (N : Normalizers) (machineId : Uuid) (r : Reported) (isVm : Option Bool)
    (configHash : Option String) (collectedAt : Option Time) (x : Alone Data DataWrite Env) : Prop :=
  softwareRows r.installedSoftware ≠ none ∧
    let after := ((upsertCurrentAndSoftware N.withSoftwareRows machineId r isVm configHash
      collectedAt).alone x).2.view
    SoftwareIndex lower after ∧
      ∀ item ∈ objects r.installedSoftware, sentName item ≠ "" →
        ∃ row ∈ after.software, row.machineId = machineId ∧ lower row.name = lower (sentName item)

/-- **The condition on a list**: whatever is under `display_name`, or under `name` where that is empty, is a
text; no two of these texts, without the blanks around them and in lower case, are the same, unless there is
nothing but blanks; and where a `display_name` has nothing but blanks, the `name` is also one of these
texts. -/
structure Listed (installedSoftware : Option (List Json)) : Prop where
  texts : ∀ item ∈ objects installedSoftware, softwareName item ≠ none
  distinct : (((objects installedSoftware).filterMap softwareName).filter (· ≠ "")).Pairwise
    fun m n => lower m ≠ lower n
  blank : ∀ item ∈ objects installedSoftware, softwareName item = some "" → sentName item ≠ "" →
    ∃ other ∈ objects installedSoftware, ∃ name, softwareName other = some name ∧ name ≠ "" ∧
      lower name = lower (sentName item)

variable {lower} {installed : Option (List Json)} {x : Alone Data DataWrite Env}

theorem name_softwareRow (machineId : Uuid) (time : Time) (item : List (String × Json))
    (name : String) : (⟨machineId, time, softwareRow item name⟩ : MachineSoftware).name = name := by
  simp [MachineSoftware.name, softwareRow, lookup_cons]

/-- **The names of the rows** are those of the items, less the blank ones. -/
theorem names_softwareRowsOf {items : List Json} {rows : List (List (String × Json))}
    (h : softwareRowsOf items = some rows) (machineId : Uuid) (time : Time) :
    (rows.map fun e => (⟨machineId, time, e⟩ : MachineSoftware).name) =
      ((items.filterMap Json.entries?).filterMap softwareName).filter (· ≠ "") := by
  induction items generalizing rows with
  | nil =>
    cases h
    rfl
  | cons item items ih =>
    rw [softwareRowsOf] at h
    cases hentries : item.entries? with
    | none =>
      rw [hentries] at h
      rw [List.filterMap_cons_none hentries]
      exact ih h
    | some entries =>
      rw [hentries] at h
      obtain ⟨name, hname, others, hothers, h⟩ : ∃ name, softwareName entries = some name ∧
          ∃ others, softwareRowsOf items = some others ∧
            (if name = "" then others else softwareRow entries name :: others) = rows := by
        simpa [Option.bind_eq_some_iff] using h
      rw [List.filterMap_cons_some hentries, List.filterMap_cons_some hname, ← h]
      by_cases hblank : name = ""
      · rw [if_pos hblank, ih hothers, List.filter_cons_of_neg (by simpa using hblank)]
      · rw [if_neg hblank, List.map_cons, ih hothers, name_softwareRow,
          List.filter_cons_of_pos (by simpa using hblank)]

theorem softwareRowsOf_eq_none {items : List Json} :
    softwareRowsOf items = none ↔ ∃ item ∈ items.filterMap Json.entries?, softwareName item = none := by
  induction items with
  | nil => simp [softwareRowsOf]
  | cons item items ih =>
    rw [softwareRowsOf]
    cases hentries : item.entries? with
    | none => rw [List.filterMap_cons_none hentries, ih]
    | some entries =>
      rw [List.filterMap_cons_some hentries, List.exists_mem_cons_iff, ← ih]
      cases hname : softwareName entries with
      | none => simp [hname]
      | some name => cases softwareRowsOf items <;> simp [hname]

theorem software_newSoftware (machineId : Uuid) (time : Time)
    (entries : List (List (String × Json))) (d : Data) :
    (applyAll (entries.map fun e => DataWrite.newSoftware ⟨machineId, time, e⟩) d).software =
      d.software ++ entries.map fun e => ⟨machineId, time, e⟩ := by
  induction entries generalizing d with
  | nil => exact (List.append_nil _).symm
  | cons entry entries ih =>
    rw [List.map_cons, applyAll_cons, ih, List.map_cons, List.append_cons]
    rfl

/-- The rows after the replacement: those of other machines, and the new ones. -/
theorem software_after (N : Normalizers) (machineId : Uuid) (r : Reported) (isVm : Option Bool)
    (configHash : Option String) (collectedAt : Option Time) :
    ∃ time, ((upsertCurrentAndSoftware N machineId r isVm configHash collectedAt).alone x).2.view.software =
      (x.view.software.filter fun s => decide (s.machineId ≠ machineId)) ++
        (N.softwareRows r.installedSoftware).map fun e => ⟨machineId, time, e⟩ := by
  obtain ⟨time, y, htime, hview⟩ : ∃ time y, (timeOr collectedAt).alone x = (time, y) ∧
      y.view = x.view := by
    cases collectedAt with
    | none => exact ⟨_, _, rfl, rfl⟩
    | some time => exact ⟨time, x, rfl, rfl⟩
  refine ⟨time, ?_⟩
  rw [upsertCurrentAndSoftware, alone_bind, htime]
  dsimp only
  rw [alone_update, alone_insert, alone_insertSoftware, Alone.view_append, software_newSoftware,
    Alone.view_write, Alone.view_write, hview]
  rfl

theorem sentName_of_softwareName {item : List (String × Json)} {name : String}
    (h : softwareName item = some name) (hname : name ≠ "") : sentName item = name := by
  have hfalsy : ∀ y : Json, y.truthy = false → blankless y = "" := by
    intro y hy
    cases y with
    | str text =>
      rw [Json.truthy, decide_eq_false_iff_not, not_not] at hy
      rw [hy]
      rfl
    | _ => rfl
  rw [softwareName] at h
  rw [sentName]
  split at h
  · rename_i text htext
    cases h
    cases hdisplay : (getD item "display_name" .null).truthy with
    | true =>
      rw [orElse_of_truthy hdisplay, orElse_of_truthy hdisplay] at htext
      rw [htext]
      exact if_pos hname
    | false =>
      rw [orElse_of_not_truthy hdisplay] at htext
      rw [hfalsy _ hdisplay, if_neg (not_not_intro rfl)]
      cases hsecond : (getD item "name" .null).truthy with
      | true =>
        rw [orElse_of_truthy hsecond] at htext
        rw [htext]
        rfl
      | false =>
        rw [orElse_of_not_truthy hsecond] at htext
        cases htext
        exact absurd rfl hname
  · cases h

section Replacement

variable {rows : List (List (String × Json))} {names : List String} {machineId : Uuid} {time : Time}
  {others : List MachineSoftware}

/-- **The unique index after a replacement.** -/
theorem nodup_replaced (hothers : (others.map (MachineSoftware.key lower)).Nodup)
    (hapart : ∀ s ∈ others, s.machineId ≠ machineId)
    (hnames : (rows.map fun e => (⟨machineId, time, e⟩ : MachineSoftware).name) = names) :
    ((others ++ rows.map fun e => (⟨machineId, time, e⟩ : MachineSoftware)).map
      (MachineSoftware.key lower)).Nodup ↔ names.Pairwise fun m n => lower m ≠ lower n := by
  have hkeys : (rows.map fun e => (⟨machineId, time, e⟩ : MachineSoftware)).map
      (MachineSoftware.key lower) = names.map fun name => (machineId, lower name) := by
    rw [← hnames, List.map_map, List.map_map]
    rfl
  have hdisjoint : ∀ k ∈ others.map (MachineSoftware.key lower),
      ∀ l ∈ names.map fun name => (machineId, lower name), k ≠ l := by
    intro k hk l hl heq
    obtain ⟨s, hs, rfl⟩ := List.mem_map.mp hk
    obtain ⟨name, -, rfl⟩ := List.mem_map.mp hl
    exact hapart s hs (congrArg Prod.fst heq)
  rw [List.map_append, List.nodup_append, hkeys]
  refine ⟨fun h => ?_, fun h => ⟨hothers, ?_, hdisjoint⟩⟩
  · exact (List.pairwise_map.mp h.2.1).imp fun hne heq => hne (by rw [heq])
  · exact List.pairwise_map.mpr (h.imp fun hne heq => hne (congrArg Prod.snd heq))

theorem exists_replaced (hapart : ∀ s ∈ others, s.machineId ≠ machineId)
    (hnames : (rows.map fun e => (⟨machineId, time, e⟩ : MachineSoftware).name) = names)
    (text : String) : (∃ row ∈ others ++ rows.map fun e => (⟨machineId, time, e⟩ : MachineSoftware),
      row.machineId = machineId ∧ lower row.name = text) ↔ ∃ name ∈ names, lower name = text := by
  rw [← hnames]
  constructor
  · rintro ⟨row, hrow, hid, htext⟩
    rcases List.mem_append.mp hrow with hrow | hrow
    · exact absurd hid (hapart row hrow)
    · obtain ⟨e, he, rfl⟩ := List.mem_map.mp hrow
      exact ⟨_, List.mem_map_of_mem he, htext⟩
  · rintro ⟨name, hname, htext⟩
    obtain ⟨e, he, rfl⟩ := List.mem_map.mp hname
    exact ⟨_, List.mem_append_right _ (List.mem_map_of_mem he), rfl, htext⟩

end Replacement

/-- **Which lists keep the index and lose no name.** -/
theorem softwareReplaced_iff (N : Normalizers) (machineId : Uuid) (r : Reported) (isVm : Option Bool)
    (configHash : Option String) (collectedAt : Option Time) (hx : SoftwareIndex lower x.view) :
    SoftwareReplaced lower N machineId r isVm configHash collectedAt x ↔
      Listed lower r.installedSoftware := by
  cases hrows : softwareRows r.installedSoftware with
  | none =>
    obtain ⟨item, hitem, hnone⟩ := softwareRowsOf_eq_none.mp hrows
    exact iff_of_false (fun h => h.1 hrows) fun h => h.texts item hitem hnone
  | some rows =>
    have htexts : ∀ item ∈ objects r.installedSoftware, softwareName item ≠ none := by
      intro item hitem hnone
      rw [softwareRows, softwareRowsOf_eq_none.mpr ⟨item, hitem, hnone⟩] at hrows
      cases hrows
    obtain ⟨time, hafter⟩ := software_after (x := x) N.withSoftwareRows machineId r isVm configHash
      collectedAt
    have hnew : N.withSoftwareRows.softwareRows r.installedSoftware = rows := by
      change (softwareRows r.installedSoftware).getD [] = rows
      rw [hrows]
      rfl
    have hnames := names_softwareRowsOf hrows machineId time
    have hothers : ((x.view.software.filter fun s => decide (s.machineId ≠ machineId)).map
        (MachineSoftware.key lower)).Nodup :=
      hx.sublist (List.filter_sublist.map _)
    have hapart : ∀ s ∈ x.view.software.filter fun s => decide (s.machineId ≠ machineId),
        s.machineId ≠ machineId := fun s hs => by simpa using (List.mem_filter.mp hs).2
    rw [hnew] at hafter
    simp only [SoftwareReplaced, SoftwareIndex, hafter, nodup_replaced hothers hapart hnames,
      exists_replaced hapart hnames]
    constructor
    · rintro ⟨-, hdistinct, hsent⟩
      refine ⟨htexts, hdistinct, fun item hitem _ hne => ?_⟩
      obtain ⟨name, hname, hlower⟩ := hsent item hitem hne
      rw [List.mem_filter, List.mem_filterMap] at hname
      obtain ⟨⟨other, hother, hchosen⟩, hblank⟩ := hname
      exact ⟨other, hother, name, hchosen, by simpa using hblank, hlower⟩
    · intro h
      refine ⟨by rw [hrows]; simp, h.distinct, fun item hitem hne => ?_⟩
      have hmem : ∀ other ∈ objects r.installedSoftware, ∀ name, softwareName other = some name →
          name ≠ "" → name ∈ (((r.installedSoftware.getD []).filterMap Json.entries?).filterMap
            softwareName).filter (· ≠ "") := by
        intro other hother name hname hblank
        exact List.mem_filter.mpr
          ⟨List.mem_filterMap.mpr ⟨other, hother, hname⟩, by simpa using hblank⟩
      obtain ⟨name, hname⟩ := Option.ne_none_iff_exists'.mp (htexts item hitem)
      by_cases hblank : name = ""
      · rw [hblank] at hname
        obtain ⟨other, hother, name, hchosen, hfull, hlower⟩ := h.blank item hitem hname hne
        exact ⟨name, hmem other hother name hchosen hfull, hlower⟩
      · exact ⟨name, hmem item hitem name hname hblank,
          by rw [sentName_of_softwareName hname hblank]⟩

/-- An application that is installed for two architectures. -/
def chromeTwice : Reported :=
  { (exampleSubmission "").reported with
    installedSoftware := some
      [.obj [("display_name", .str "Google Chrome"), ("version", .str "126.0.6478.127")],
        .obj [("display_name", .str "Google Chrome"), ("version", .str "125.0.6422.142")]] }

/-- A transaction on an empty database. -/
def onNoData : Alone Data DataWrite Env := ⟨noData, [], 0, fun _ => exampleAnswer⟩

theorem softwareReplaced_iff_chromeTwice :
    SoftwareReplaced String.toLower exampleNormalizers 0 chromeTwice none none none onNoData ↔
      Listed String.toLower chromeTwice.installedSoftware :=
  softwareReplaced_iff exampleNormalizers 0 chromeTwice none none none List.nodup_nil

/-- **The two rows have the same name**, and the index refuses them. -/
theorem chromeTwice_not_replaced :
    ¬ ∀ r, SoftwareReplaced String.toLower exampleNormalizers 0 r none none none onNoData := by
  intro h
  have hindex : [((0 : Uuid), String.toLower "Google Chrome"), (0, String.toLower "Google Chrome")].Nodup :=
    (h chromeTwice).2.1
  simp at hindex

end Software

end AssetInventory.Fleet

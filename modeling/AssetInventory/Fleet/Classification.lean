import AssetInventory.Fleet.Portal
import AssetInventory.Fleet.Writes
import AssetInventory.Server.Callers

/-!
# One classification for a machine

A machine has one tag that classifies it and any number of tags for its purposes, and a row of
`machine_tags` repeats the kind of its tag.  Enrollment and import classify the machine that they insert,
unless it is classified; an edit clears the tags of the kind that it is about and inserts others.

* `ensureSystemTags`: the three tags that classify, at the start of the server; `createTag`: another tag.
* `TaggingRequest`, `taggingRoute`: the requests that insert machines, change them or tag them.
* `WellTagged`: what holds of the rows.  `Consistent` is what the routes keep: at most one row of a machine
  classifies it, and one does if the machine is there.
* `wellTagged_of_served`: from an empty database, whatever is requested.

The upper and lower case of a text is a parameter, and so is the text of a random number.
-/

namespace AssetInventory.Fleet

open PyJson PyTime Orm RowStore ReadCommitted Server Interleaving

/-! ## The tags of the system -/

def classificationTags : List (String × String) :=
  [("personal", "Máy cá nhân"), ("official", "Máy công vụ"), ("bmnn", "Máy BMNN")]

def classificationColors : List (String × String) :=
  [("personal", "bg-sky-50 text-sky-700 ring-sky-600/20"),
    ("official", "bg-emerald-50 text-emerald-700 ring-emerald-600/20"),
    ("bmnn", "bg-amber-50 text-amber-700 ring-amber-600/20")]

def systemTag (id : Uuid) (idx : ℤ) (key label : String) : Tag where
  id := id
  key := key
  label := label
  kind := .classification
  color := (classificationColors.find? fun x => decide (x.1 = key)).map Prod.snd
  sortOrder := idx
  isSystem := true

/-- The loop of `ensure_system_tags`. -/
def ensureTagsFrom (idx : ℤ) : List (String × String) → Handler Unit
  | [] => return ()
  | (key, label) :: rest => do
    let existing ← .select fun data => tagByKey data key
    match existing with
    | some _ => ensureTagsFrom (idx + 1) rest
    | none =>
      let id ← .fresh
      .insert (.createTag (systemTag id idx key label))
      ensureTagsFrom (idx + 1) rest

def ensureSystemTags : Handler Unit := do
  ensureTagsFrom 1 classificationTags
  .publish []

/-! ## Tags that a super admin creates -/

/-- How a key is made of a text. -/
structure Naming where
  /-- `text.lower()`. -/
  lower : String → String
  /-- The first eight digits of a random number. -/
  hex : ℕ → String

/-- A character that stays in a key: `[a-z0-9]`. -/
def slugChar (c : Char) : Bool := c.isLower || c.isDigit

/-- Each stretch of other characters is one underscore; `inside` such a stretch or not. -/
def underscored (inside : Bool) : List Char → List Char
  | [] => []
  | c :: cs =>
    if slugChar c then c :: underscored false cs
    else if inside then underscored true cs
    else '_' :: underscored true cs

/-- `text.strip("_")`. -/
def stripUnderscores (cs : List Char) : List Char :=
  ((cs.dropWhile fun c => decide (c = '_')).reverse.dropWhile fun c => decide (c = '_')).reverse

/-- The key that a label makes.  The programs are not evaluated on it. -/
@[irreducible] def slugOf (n : Naming) (label : String) : String :=
  String.ofList (stripUnderscores (underscored false (strip (n.lower label)).toList))

def slugify (n : Naming) (label : String) : Handler String := do
  if slugOf n label ≠ "" then return slugOf n label
  else
    let random ← .fresh
    return n.hex random

structure TagCreateRequest where
  label : String
  kind : TagKind
  key : Option String
  color : Option String

def TagCreateRequest.newKey (n : Naming) (body : TagCreateRequest) : Handler String := do
  match given body.key with
  | some key => return replace " " "_" (n.lower (strip key))
  | none =>
    let slug ← slugify n body.label
    return replace " " "_" (n.lower (strip slug))

def createTag (n : Naming) (body : TagCreateRequest) (caller : Option Uuid) :
    Handler (Except HttpError Tag) := do
  let admin ← Callers.requireSuperAdmin Data.users caller
  match admin with
  | .error e => return .error e
  | .ok _ =>
    if body.kind = .classification then
      httpError 400 ("Không tạo được tag phân loại mới — chỉ có 3 loại máy hệ thống " ++
        "(cá nhân / công vụ / BMNN)")
    else
      let key ← body.newKey n
      let existing ← .select fun data => tagByKey data key
      match existing with
      | some _ => httpError 409 ("Tag '" ++ key ++ "' đã tồn tại")
      | none =>
        let id ← .fresh
        let tag : Tag := ⟨id, key, strip body.label, body.kind, body.color, 0, false⟩
        .insert (.createTag tag)
        .publish []
        return .ok tag

/-! ## Requests -/

/-- The settings that the routes read. -/
structure TaggingSettings where
  portal : PortalSettings
  naming : Naming

/-- The start of the server, the requests that insert and change machines, and those about tags. -/
inductive TaggingRequest where
  | startup
  | fleet (request : FleetRequest)
  | setTags (machineId : Uuid) (classification : Option String) (purpose : Option (List String))
      (caller : Option Uuid)
  | bulkTags (body : BulkTagRequest) (caller : Option Uuid)
  | createTag (body : TagCreateRequest) (caller : Option Uuid)

/-- The program of a request. -/
def taggingRoute (c : TaggingSettings) : TaggingRequest → Handler Unit
  | .startup => ensureSystemTags
  | .fleet request => fleetRoute c.portal.fleet request
  | .setTags machineId classification purpose caller => do
    let _ ← setMachineTags c.portal machineId classification purpose caller
  | .bulkTags body caller => do let _ ← setMachineTagsBulk body caller
  | .createTag body caller => do let _ ← Fleet.createTag c.naming body caller

/-- Requests one after the other. -/
abbrev taggingServe (c : TaggingSettings) :
    AtRest Data → TaggingRequest × (ℕ → Env) → Option (AtRest Data) :=
  serveStep (taggingRoute c)

/-- An edit of tags that asks for no classification. -/
def TaggingRequest.PurposeOnly : TaggingRequest → Prop
  | .setTags _ classification _ _ => classification = none
  | .bulkTags body _ => body.classification = none
  | _ => False

/-! ## What holds of the rows -/

def tagOf (data : Data) (row : MachineTag) : Option Tag :=
  data.tags.find? fun tag => decide (tag.id = row.tagId)

/-- The tags of a machine that classify it. -/
def classificationOf (data : Data) (machineId : Uuid) : List Tag :=
  ((data.machineTags.filter fun row => decide (row.machineId = machineId)).filterMap
    (tagOf data)).filter fun tag => decide (tag.kind = .classification)

/-- **What holds of the rows**: one tag classifies a machine, a row repeats the kind of its tag, and no
machine has a tag twice. -/
structure WellTagged (data : Data) : Prop where
  classified : ∀ id m, data.machines.get id = some m → ∃ tag, classificationOf data id = [tag]
  sameKind : ∀ row ∈ data.machineTags, ∃ tag, tagOf data row = some tag ∧ tag.kind = row.kind
  noneTwice : (data.machineTags.map fun row => (row.machineId, row.tagId)).Nodup

/-! ## The invariant -/

/-- The rows that classify a machine. -/
def classifying (data : Data) (machineId : Uuid) : List MachineTag :=
  data.machineTags.filter fun row =>
    decide (row.machineId = machineId ∧ row.kind = .classification)

/-- **What the writes keep** whether the machines are classified or not. -/
structure Sound (data : Data) : Prop where
  keys : (data.tags.map Tag.key).Nodup
  ids : (data.tags.map Tag.id).Nodup
  reserved : ∀ key ∈ classificationKeys, ∃ tag ∈ data.tags, tag.key = key ∧ tag.kind = .classification
  kinds : ∀ row ∈ data.machineTags, ∃ tag ∈ data.tags, tag.id = row.tagId ∧ tag.kind = row.kind
  noneTwice : (data.machineTags.map fun row => (row.machineId, row.tagId)).Nodup
  atMostOne : ∀ id, (classifying data id).length ≤ 1

/-- The rows are sound, and every machine but one is classified. -/
structure ConsistentBut (machineId : Uuid) (data : Data) : Prop extends Sound data where
  classified : ∀ id m, data.machines.get id = some m → id ≠ machineId → classifying data id ≠ []

/-- The rows are sound, and every machine is classified. -/
structure Consistent (data : Data) : Prop extends Sound data where
  classified : ∀ id m, data.machines.get id = some m → classifying data id ≠ []

section Rows

variable {d : Data} {row : MachineTag} {tag : Tag}

theorem mem_classifying {id : Uuid} :
    row ∈ classifying d id ↔ row ∈ d.machineTags ∧ row.machineId = id ∧ row.kind = .classification := by
  rw [classifying, List.mem_filter, decide_eq_true_iff]

theorem Sound.tagOf_eq (h : Sound d) (htag : tag ∈ d.tags) (hid : tag.id = row.tagId) :
    tagOf d row = some tag := by
  have hmem : ∀ t ∈ d.tags, t.id = row.tagId → t = tag := fun t ht htid =>
    List.inj_on_of_nodup_map h.ids ht htag (htid.trans hid.symm)
  cases hfound : tagOf d row with
  | none =>
    have hnone := List.find?_eq_none.mp hfound tag htag
    rw [decide_eq_true_iff] at hnone
    exact absurd hid hnone
  | some t =>
    have hprop := List.find?_some hfound
    rw [decide_eq_true_iff] at hprop
    rw [hmem t (List.mem_of_find?_eq_some hfound) hprop]

theorem Sound.exists_tagOf (h : Sound d) (hrow : row ∈ d.machineTags) :
    ∃ tag, tagOf d row = some tag ∧ tag.kind = row.kind := by
  obtain ⟨tag, htag, hid, hkind⟩ := h.kinds row hrow
  exact ⟨tag, h.tagOf_eq htag hid, hkind⟩

theorem tagByKey_eq_some {key : String} (h : tagByKey d key = some tag) :
    tag ∈ d.tags ∧ tag.key = key := by
  refine ⟨List.mem_of_find?_eq_some h, ?_⟩
  have hkey := List.find?_some h
  rwa [decide_eq_true_iff] at hkey

theorem tagByKey_eq_none {key : String} (h : tagByKey d key = none) : ∀ t ∈ d.tags, t.key ≠ key := by
  intro t ht
  have hkey := List.find?_eq_none.mp h t ht
  rwa [decide_eq_true_iff] at hkey

theorem Sound.tagByKey_reserved (h : Sound d) {key : String} (hkey : key ∈ classificationKeys) :
    ∃ tag ∈ d.tags, tagByKey d key = some tag ∧ tag.kind = .classification := by
  obtain ⟨tag, htag, htagkey, hkind⟩ := h.reserved key hkey
  cases hfound : tagByKey d key with
  | none => exact absurd htagkey (tagByKey_eq_none hfound tag htag)
  | some t =>
    obtain ⟨ht, htkey⟩ := tagByKey_eq_some hfound
    obtain rfl : t = tag := List.inj_on_of_nodup_map h.keys ht htag (htkey.trans htagkey.symm)
    exact ⟨t, ht, rfl, hkind⟩

/-- The rows that classify a machine are those of the tags that classify it. -/
theorem Sound.classificationOf_eq (h : Sound d) (id : Uuid) :
    classificationOf d id = (classifying d id).filterMap (tagOf d) := by
  have hrows : ∀ rows : List MachineTag, (∀ row ∈ rows, row ∈ d.machineTags) →
      ((rows.filter fun row => decide (row.machineId = id)).filterMap (tagOf d)).filter
          (fun tag => decide (tag.kind = .classification)) =
        (rows.filter fun row => decide (row.machineId = id ∧ row.kind = .classification)).filterMap
          (tagOf d) := by
    intro rows hmem
    induction rows with
    | nil => rfl
    | cons row rows ih =>
      have ih := ih fun r hr => hmem r (List.mem_cons_of_mem _ hr)
      obtain ⟨tag, htag, hkind⟩ := h.exists_tagOf (hmem row List.mem_cons_self)
      by_cases hid : row.machineId = id
      · by_cases hclass : row.kind = .classification
        · simp [hid, hclass, htag, hkind, ih]
        · simp [hid, hclass, htag, hkind, ih]
      · simp [hid, ih]
  exact hrows d.machineTags fun row hrow => hrow

/-- **Consistent rows are well tagged.** -/
theorem Consistent.wellTagged (h : Consistent d) : WellTagged d where
  classified := by
    intro id m hm
    have hne := h.classified id m hm
    have hle := h.atMostOne id
    obtain ⟨row, hrow⟩ : ∃ row, classifying d id = [row] := by
      cases hrows : classifying d id with
      | nil => exact absurd hrows hne
      | cons row rows =>
        rw [hrows, List.length_cons] at hle
        exact ⟨row, by rw [List.eq_nil_of_length_eq_zero (by omega : rows.length = 0)]⟩
    have hmem : row ∈ d.machineTags := (mem_classifying.mp (hrow ▸ List.mem_singleton_self row)).1
    obtain ⟨tag, htag, -⟩ := h.exists_tagOf hmem
    refine ⟨tag, ?_⟩
    rw [h.classificationOf_eq, hrow, List.filterMap_cons, htag]
    rfl
  sameKind := fun row hrow => h.exists_tagOf hrow
  noneTwice := h.noneTwice

end Rows

/-! ## Writes -/

/-- A write that concerns no tags and inserts no machine. -/
def KeepsTags : DataWrite → Prop
  | .newMachine _ _ => False
  | .createTag _ => False
  | .clearTags _ _ => False
  | .newTag _ => False
  | _ => True

section Writes

variable {d : Data} {w : DataWrite} {machineId : Uuid}

theorem KeepsTags.of_apart (w : DataWrite) (h : w.Apart) : KeepsTags w := by
  cases w <;> trivial

theorem Consistent.but (h : Consistent d) (machineId : Uuid) : ConsistentBut machineId d :=
  ⟨h.toSound, fun id m hm _ => h.classified id m hm⟩

theorem KeepsTags.consistent (hw : KeepsTags w) (d : Data) (h : Consistent d) :
    Consistent (Applies.apply w d) := by
  obtain ⟨⟨hkeys, hids, hreserved, hkinds, hnoneTwice, hatMostOne⟩, hclassified⟩ := h
  cases w with
  | machine id base cur =>
    refine ⟨⟨hkeys, hids, hreserved, hkinds, hnoneTwice, hatMostOne⟩, fun j m hm => ?_⟩
    rw [machines_machine] at hm
    rcases Table.get_modify_cases hm with ⟨rfl, stored, hstored, -⟩ | ⟨-, hstored⟩
    · exact hclassified j stored hstored
    · exact hclassified j m hstored
  | newMachine id row => exact hw.elim
  | createTag row => exact hw.elim
  | clearTags id kind => exact hw.elim
  | newTag row => exact hw.elim
  | _ => exact ⟨⟨hkeys, hids, hreserved, hkinds, hnoneTwice, hatMostOne⟩, hclassified⟩

theorem Consistent.newMachine (h : Consistent d) (id : Uuid) (row : Machine) :
    ConsistentBut id (Applies.apply (DataWrite.newMachine id row) d) := by
  obtain ⟨⟨hkeys, hids, hreserved, hkinds, hnoneTwice, hatMostOne⟩, hclassified⟩ := h
  refine ⟨⟨hkeys, hids, hreserved, hkinds, hnoneTwice, hatMostOne⟩, fun j m hm hj => ?_⟩
  rw [machines_newMachine, Table.get_insert_of_ne row hj] at hm
  exact hclassified j m hm

/-! A row is inserted. -/

theorem classifying_newTag (row : MachineTag) (id : Uuid) :
    classifying (Applies.apply (DataWrite.newTag row) d) id =
      classifying d id ++ if row.machineId = id ∧ row.kind = .classification then [row] else [] := by
  change (d.machineTags ++ [row]).filter _ = _
  rw [List.filter_append, List.filter_singleton]
  by_cases h : row.machineId = id ∧ row.kind = .classification
  · simp [classifying, h]
  · simp [classifying, h]

/-- A tag that the machine does not have, and no second one that classifies it. -/
theorem Sound.newTag (h : Sound d) {tag : Tag} (htag : tag ∈ d.tags) (actor : Option Uuid)
    (hnone : ∀ row ∈ d.machineTags, row.machineId = machineId → row.tagId ≠ tag.id)
    (hclass : tag.kind = .classification → classifying d machineId = []) :
    Sound (Applies.apply (DataWrite.newTag ⟨machineId, tag.id, tag.kind, actor⟩) d) where
  keys := h.keys
  ids := h.ids
  reserved := h.reserved
  kinds := by
    intro row hrow
    rcases List.mem_append.mp hrow with hrow | hrow
    · exact h.kinds row hrow
    · rw [List.mem_singleton.mp hrow]
      exact ⟨tag, htag, rfl, rfl⟩
  noneTwice := by
    change ((d.machineTags ++ [_]).map _).Nodup
    rw [List.map_append, List.nodup_append]
    refine ⟨h.noneTwice, by simp, fun a ha b hb => ?_⟩
    obtain ⟨row, hrow, rfl⟩ := List.mem_map.mp ha
    rw [List.map_singleton, List.mem_singleton] at hb
    rw [hb]
    intro heq
    obtain ⟨hid, htagId⟩ := Prod.mk.inj heq
    exact hnone row hrow hid htagId
  atMostOne := by
    intro id
    rw [classifying_newTag]
    have hle := h.atMostOne id
    split_ifs with hrow
    · obtain ⟨rfl, hkind⟩ := hrow
      rw [hclass hkind]
      simp
    · rwa [List.append_nil]

/-! The rows of a kind are cleared. -/

theorem classifying_clearTags_of_ne (kind : TagKind) {id : Uuid} (hid : id ≠ machineId) :
    classifying (Applies.apply (DataWrite.clearTags machineId kind) d) id = classifying d id := by
  change (d.machineTags.filter _).filter _ = _
  rw [List.filter_filter, classifying]
  refine List.filter_congr fun row _ => ?_
  by_cases hrow : row.machineId = id
  · simp [hrow, hid]
  · simp [hrow]

theorem classifying_clearPurpose (id : Uuid) :
    classifying (Applies.apply (DataWrite.clearTags machineId .purpose) d) id = classifying d id := by
  change (d.machineTags.filter _).filter _ = _
  rw [List.filter_filter, classifying]
  refine List.filter_congr fun row _ => ?_
  cases hkind : row.kind with
  | classification => simp
  | purpose => simp

theorem classifying_clearClassification :
    classifying (Applies.apply (DataWrite.clearTags machineId .classification) d) machineId = [] := by
  change (d.machineTags.filter _).filter _ = _
  rw [List.filter_filter, List.filter_eq_nil_iff]
  intro row _
  simp

theorem mem_clearTags {kind : TagKind} {row : MachineTag}
    (h : row ∈ (Applies.apply (DataWrite.clearTags machineId kind) d).machineTags) :
    row ∈ d.machineTags ∧ (row.machineId = machineId → row.kind ≠ kind) := by
  obtain ⟨hrow, hkept⟩ := List.mem_filter.mp h
  refine ⟨hrow, fun hid hkind => ?_⟩
  rw [decide_eq_true ⟨hid, hkind⟩] at hkept
  exact absurd hkept (by decide)

theorem Sound.clearTags (h : Sound d) (machineId : Uuid) (kind : TagKind) :
    Sound (Applies.apply (DataWrite.clearTags machineId kind) d) where
  keys := h.keys
  ids := h.ids
  reserved := h.reserved
  kinds := fun row hrow => h.kinds row (mem_clearTags hrow).1
  noneTwice := h.noneTwice.sublist (List.filter_sublist.map _)
  atMostOne := fun id =>
    (List.filter_sublist.filter _).length_le.trans (h.atMostOne id)

/-- A machine from which the tags of a kind are cleared has none of this kind. -/
theorem Sound.tagId_ne (h : Sound d) {tag : Tag} (htag : tag ∈ d.tags) {row : MachineTag}
    (hrow : row ∈ d.machineTags) (hkind : row.kind ≠ tag.kind) : row.tagId ≠ tag.id := by
  intro hid
  obtain ⟨t, ht, htid, htkind⟩ := h.kinds row hrow
  obtain rfl : t = tag := List.inj_on_of_nodup_map h.ids ht htag (htid.trans hid)
  exact hkind htkind.symm

/-! A tag is created. -/

theorem Consistent.createTag (h : Consistent d) {tag : Tag} (hkey : tagByKey d tag.key = none) :
    Consistent (Applies.apply (DataWrite.createTag tag) d) := by
  obtain ⟨⟨hkeys, hids, hreserved, hkinds, hnoneTwice, hatMostOne⟩, hclassified⟩ := h
  by_cases hclash : (d.tags.any fun t => decide (t.id = tag.id ∨ t.key = tag.key)) = true
  · have htags : (Applies.apply (DataWrite.createTag tag) d).tags = d.tags := if_pos hclash
    exact ⟨⟨htags ▸ hkeys, htags ▸ hids, htags ▸ hreserved, htags ▸ hkinds, hnoneTwice, hatMostOne⟩,
      hclassified⟩
  · have htags : (Applies.apply (DataWrite.createTag tag) d).tags = d.tags ++ [tag] := if_neg hclash
    have hfresh : ∀ t ∈ d.tags, t.id ≠ tag.id := by
      intro t ht hid
      exact hclash (List.any_eq_true.mpr ⟨t, ht, decide_eq_true (Or.inl hid)⟩)
    have hold : ∀ t ∈ d.tags, t ∈ (Applies.apply (DataWrite.createTag tag) d).tags := by
      intro t ht
      rw [htags]
      exact List.mem_append_left _ ht
    refine ⟨⟨?_, ?_, fun key hk => ?_, fun row hrow => ?_, hnoneTwice, hatMostOne⟩, hclassified⟩
    · rw [htags, List.map_append, List.nodup_append]
      refine ⟨hkeys, by simp, fun a ha b hb => ?_⟩
      obtain ⟨t, ht, rfl⟩ := List.mem_map.mp ha
      rw [List.map_singleton, List.mem_singleton] at hb
      exact hb ▸ tagByKey_eq_none hkey t ht
    · rw [htags, List.map_append, List.nodup_append]
      refine ⟨hids, by simp, fun a ha b hb => ?_⟩
      obtain ⟨t, ht, rfl⟩ := List.mem_map.mp ha
      rw [List.map_singleton, List.mem_singleton] at hb
      exact hb ▸ hfresh t ht
    · obtain ⟨t, ht, htkey⟩ := hreserved key hk
      exact ⟨t, hold t ht, htkey⟩
    · obtain ⟨t, ht, htid⟩ := hkinds row hrow
      exact ⟨t, hold t ht, htid⟩

end Writes

/-! ## Tags of a machine -/

section Parts

variable {α : Type} {x : Alone Data DataWrite Env} {Q : α → Alone Data DataWrite Env → Prop} {B : List Note → Prop}

theorem keeps_of_keepsTags {C : α → Prop} {m : Handler α}
    (hm : m.Only KeepsTags B C) (hx : Consistent x.view) :
    m.CommitsKeep Consistent (fun a y => C a ∧ Consistent y.view) x :=
  hm.commitsKeep_view (fun _ hw d => hw.consistent d) hx

theorem keeps_discard {β : Type} {m : Handler β}
    (hm : m.CommitsKeep Consistent (fun _ y => Consistent y.view) x) :
    (m >>= fun _ => (pure () : Handler Unit)).CommitsKeep Consistent
    (fun _ y => Consistent y.view) x :=
  Prog.CommitsKeep.bind (hm.mono fun _ _ hy => keeps_pure hy)

variable (machineId : Uuid) (actor : Option Uuid)

/-- **A machine is classified**, unless it is. -/
theorem keeps_ensureClassification (hx : ConsistentBut machineId x.view) (key : String) :
    (ensureClassification machineId key actor).CommitsKeep Consistent
    (fun _ y => Consistent y.view) x := by
  have hknown : (if key ∈ classificationKeys then key else defaultClassification) ∈
      classificationKeys := by
    split_ifs with hkey
    · exact hkey
    · decide
  rw [ensureClassification]
  generalize (if key ∈ classificationKeys then key else defaultClassification) = known at hknown ⊢
  obtain ⟨tag, htag, hfound, hkind⟩ := hx.tagByKey_reserved hknown
  refine keeps_select _ ?_
  rw [hfound]
  refine keeps_select _ ?_
  cases hhas : x.view.machineTags.any fun t =>
      decide (t.machineId = machineId ∧ t.kind = .classification) with
  | true =>
    refine keeps_pure ⟨hx.toSound, fun id m hm => ?_⟩
    by_cases hid : id = machineId
    · obtain ⟨row, hrow, hprop⟩ := List.any_eq_true.mp hhas
      rw [decide_eq_true_iff] at hprop
      exact List.ne_nil_of_mem (mem_classifying.mpr ⟨hrow, hid ▸ hprop⟩)
    · exact hx.classified id m hm hid
  | false =>
    have hnone : classifying x.view machineId = [] := by
      refine List.filter_eq_nil_iff.mpr fun row hrow => ?_
      exact List.any_eq_false.mp hhas row hrow
    refine keeps_insert _ (keeps_pure ?_)
    rw [Alone.view_write, ← hkind]
    refine ⟨hx.toSound.newTag htag actor (fun row hrow hid => ?_) fun _ => hnone, fun id m hm => ?_⟩
    · refine hx.tagId_ne htag hrow fun hrowkind => ?_
      have hmem : row ∈ classifying x.view machineId :=
        mem_classifying.mpr ⟨hrow, hid, hrowkind.trans hkind⟩
      rw [hnone] at hmem
      exact List.not_mem_nil hmem
    · rw [classifying_newTag]
      by_cases hid : machineId = id
      · rw [if_pos ⟨hid, hkind⟩]
        simp
      · rw [if_neg fun h => hid h.1, List.append_nil]
        exact hx.classified id m hm fun h => hid h.symm

theorem keeps_insertTags (hx : Consistent x.view) (tags : List Tag)
    (htags : ∀ tag ∈ tags, tag ∈ x.view.tags ∧ tag.kind = .purpose) (hnodup : (tags.map Tag.id).Nodup)
    (hnone : ∀ tag ∈ tags, ∀ row ∈ x.view.machineTags, row.machineId = machineId →
      row.tagId ≠ tag.id) :
    (insertTags machineId actor tags).CommitsKeep Consistent (fun _ y => Consistent y.view) x := by
  induction tags generalizing x with
  | nil => exact keeps_pure hx
  | cons tag tags ih =>
    obtain ⟨htag, hkind⟩ := htags tag List.mem_cons_self
    rw [List.map_cons, List.nodup_cons] at hnodup
    have hsound : Sound (Applies.apply (DataWrite.newTag ⟨machineId, tag.id, .purpose, actor⟩)
        x.view) := by
      rw [← hkind]
      refine hx.toSound.newTag htag actor (hnone tag List.mem_cons_self) fun hclass => ?_
      rw [hkind] at hclass
      cases hclass
    refine keeps_insert _ (ih ?_ ?_ hnodup.2 ?_)
    · rw [Alone.view_write]
      refine ⟨hsound, fun id m hm => ?_⟩
      rw [classifying_newTag]
      exact fun h => hx.classified id m hm (List.append_eq_nil_iff.mp h).1
    · rw [Alone.view_write]
      exact fun t ht => htags t (List.mem_cons_of_mem _ ht)
    · rw [Alone.view_write]
      intro t ht row hrow hid
      rcases List.mem_append.mp hrow with hrow | hrow
      · exact hnone t (List.mem_cons_of_mem _ ht) row hrow hid
      · rw [List.mem_singleton.mp hrow]
        exact fun h => hnodup.1 (List.mem_map.mpr ⟨t, ht, h.symm⟩)

theorem mem_purposeTagsOf {d : Data} {keys : List String} {tag : Tag}
    (h : tag ∈ purposeTagsOf d keys) : tag ∈ d.tags ∧ tag.kind = .purpose := by
  obtain ⟨hmem, hkind⟩ := List.mem_filter.mp h
  obtain ⟨key, -, hkey⟩ := List.mem_filterMap.mp hmem
  exact ⟨(tagByKey_eq_some hkey).1, of_decide_eq_true hkind⟩

theorem Sound.nodup_purposeTagsOf {d : Data} (h : Sound d) (keys : List String) :
    ((purposeTagsOf d keys).map Tag.id).Nodup := by
  have hdistinct : (purposeTagsOf d keys).Nodup := by
    refine List.Nodup.filter _ (List.Nodup.filterMap ?_ ?_)
    · intro key key' tag hkey hkey'
      rw [← (tagByKey_eq_some hkey).2, ← (tagByKey_eq_some hkey').2]
    · exact List.nodup_reverse.mpr (List.nodup_dedup _)
  refine List.Nodup.map_on (fun a ha b hb hid => ?_) hdistinct
  exact List.inj_on_of_nodup_map h.ids (mem_purposeTagsOf ha).1 (mem_purposeTagsOf hb).1 hid

/-- **The purposes of a machine are replaced.** -/
theorem keeps_setMachinePurposeTags (hx : Consistent x.view) (keys : List String) :
    (setMachinePurposeTags machineId keys actor).CommitsKeep Consistent
      (fun _ y => Consistent y.view) x := by
  refine keeps_select _ (keeps_insert _ ?_)
  have hsound := hx.toSound.clearTags machineId .purpose
  refine keeps_insertTags machineId actor ?_ _ ?_ (hx.nodup_purposeTagsOf keys) ?_
  · rw [Alone.view_write]
    refine ⟨hsound, fun id m hm => ?_⟩
    rw [classifying_clearPurpose]
    exact hx.classified id m hm
  · rw [Alone.view_write]
    exact fun tag htag => mem_purposeTagsOf htag
  · rw [Alone.view_write]
    intro tag htag row hrow hid
    obtain ⟨hmem, hkind⟩ := mem_purposeTagsOf htag
    exact hsound.tagId_ne hmem hrow (hkind ▸ (mem_clearTags hrow).2 hid)

/-- **The tags of a token** for a machine that may not be classified. -/
theorem keeps_applyTokenTags (hx : ConsistentBut machineId x.view) (token : EnrollToken) :
    (applyTokenTags machineId token).CommitsKeep Consistent (fun _ y => Consistent y.view) x := by
  refine Prog.CommitsKeep.bind ((keeps_ensureClassification machineId none hx _).mono fun _ y hy => ?_)
  split
  · exact keeps_pure hy
  · exact keeps_setMachinePurposeTags machineId none hy _

/-- **The classification of a machine is changed.** -/
theorem keeps_setMachineClassification (hx : Consistent x.view) (key : String) :
    (setMachineClassification machineId key actor).CommitsKeep Consistent
      (fun _ y => Consistent y.view) x := by
  rw [setMachineClassification]
  split
  · exact keeps_pure hx
  · rename_i hkey
    obtain ⟨tag, htag, hfound, hkind⟩ := hx.tagByKey_reserved (not_not.mp hkey)
    refine keeps_select _ ?_
    rw [hfound]
    refine keeps_insert _ (keeps_insert _ (keeps_pure ?_))
    rw [Alone.view_write, Alone.view_write]
    have hsound := hx.toSound.clearTags machineId .classification
    have hnone : ∀ row ∈ (Applies.apply (DataWrite.clearTags machineId .classification)
        x.view).machineTags, row.machineId = machineId → row.tagId ≠ tag.id := fun row hrow hid =>
      hsound.tagId_ne htag hrow (hkind ▸ (mem_clearTags hrow).2 hid)
    have hnew := hsound.newTag htag actor hnone fun _ => classifying_clearClassification
    rw [hkind] at hnew
    refine ⟨hnew, fun id m hm => ?_⟩
    rw [classifying_newTag]
    by_cases hid : machineId = id
    · rw [if_pos ⟨hid, rfl⟩]
      simp
    · rw [if_neg fun h => hid h.1, List.append_nil,
        classifying_clearTags_of_ne _ fun h => hid h.symm]
      exact hx.classified id m hm

end Parts

/-! ## The routes -/

section Routes

variable {α : Type} {x : Alone Data DataWrite Env} {Q : α → Alone Data DataWrite Env → Prop}

theorem keeps_after {B : List Note → Prop} {β : Type} {C : β → Prop} {m : Handler β}
    {f : β → Handler α} (hm : m.Only KeepsTags B C) (hx : Consistent x.view)
    (h : ∀ b (y : Alone Data DataWrite Env), C b → Consistent y.view →
      (f b).CommitsKeep Consistent Q y) : (m >>= f).CommitsKeep Consistent Q x :=
  Prog.CommitsKeep.bind ((keeps_of_keepsTags hm hx).mono fun b y hy => h b y hy.1 hy.2)

theorem keeps_then {β : Type} {m : Handler β} {f : β → Handler α}
    (hm : m.CommitsKeep Consistent (fun _ y => Consistent y.view) x)
    (h : ∀ b (y : Alone Data DataWrite Env), Consistent y.view → (f b).CommitsKeep Consistent Q y) :
    (m >>= f).CommitsKeep Consistent Q x :=
  Prog.CommitsKeep.bind (hm.mono fun b y hy => h b y hy)

section Enroll

variable (I : Identification)

theorem keeps_insertMachine_tags (hx : Consistent x.view) (tokenId : Uuid) (token : EnrollToken)
    (hostname : Option String) (fingerprint : Fingerprint) (weighted : String) (time : Time) :
    (insertMachine tokenId token hostname fingerprint weighted time).CommitsKeep Consistent
      (fun _ y => Consistent y.view) x := by
  refine keeps_select _ ?_
  cases assignedUser x.view token.email with
  | none => exact keeps_pure hx
  | some user =>
    refine keeps_fresh (keeps_insert _ ?_)
    refine keeps_then (keeps_applyTokenTags _ ?_ token) fun _ y hy => keeps_pure hy
    rw [Alone.view_write]
    exact hx.newMachine _ _

theorem keeps_enrollMachine_tags (hx : Consistent x.view) (tokenId : Uuid) (token : EnrollToken)
    (hostname : Option String) (fingerprint : Fingerprint) (time : Time) :
    (enrollMachine I tokenId token hostname fingerprint time).CommitsKeep Consistent
      (fun _ y => Consistent y.view) x := by
  rw [enrollMachine]
  cases computeWeightedId I fingerprint with
  | none => exact keeps_pure hx
  | some weighted =>
    refine keeps_after (B := fun _ => False) (only_findMachine I _ _ _) hx fun found y _ hy => ?_
    match found with
    | none => exact keeps_pure hy
    | some none => exact keeps_insertMachine_tags hy _ _ _ _ _ _
    | some (some (id, row)) =>
      exact (keeps_of_keepsTags (B := fun _ => False) (only_updateMachine I KeepsTags.of_apart id row
        tokenId token hostname fingerprint weighted time trivial) hy).mono fun _ _ h => h.2

theorem keeps_performEnroll_tags (hx : Consistent x.view) (tokenStr : String)
    (hostname : Option String) (fingerprint : Fingerprint) (ip : Option String) :
    (performEnroll I tokenStr hostname fingerprint ip).CommitsKeep Consistent
      (fun _ y => Consistent y.view) x := by
  have hrefuse : ∀ refusal row detail (y : Alone Data DataWrite Env), Consistent y.view →
      (refuse I tokenStr refusal row hostname fingerprint ip detail :
        Handler (Except HttpError Enrollment)).CommitsKeep Consistent
          (fun _ z => Consistent z.view) y := fun refusal row detail y hy =>
    (keeps_of_keepsTags (B := fun _ => True) (only_refuse I KeepsTags.of_apart trivial tokenStr refusal
      row hostname fingerprint ip detail) hy).mono fun _ _ h => h.2
  refine keeps_select _ ?_
  match scalarOneOrNone (x.view.tokens.rowsWhere fun t =>
      decide (t.tokenHash = I.sha256 tokenStr)) with
  | none => exact keeps_pure hx
  | some none => exact hrefuse _ _ _ _ hx
  | some (some (tokenId, token)) =>
    refine keeps_answer _ ?_
    generalize hy : ({ x with answers := fun i => x.answers (i + 1) } : Alone Data DataWrite Env) = y
    have hy : Consistent y.view := hy ▸ hx
    split
    · exact hrefuse _ _ _ _ hy
    · split
      · exact hrefuse _ _ _ _ hy
      · split
        · exact keeps_after (B := fun _ => False) (only_flushToken trivial) hy fun _ z _ hz =>
            hrefuse _ _ _ _ hz
        · exact keeps_enrollMachine_tags I hy tokenId token hostname fingerprint _

/-- **An enrollment** keeps the rows consistent. -/
theorem keeps_enroll_tags (hx : Consistent x.view) (body : EnrollRequest) :
    (enroll I body).CommitsKeep Consistent (fun _ y => Consistent y.view) x := by
  refine keeps_then (keeps_performEnroll_tags I hx _ _ _ _) fun r y hy => ?_
  cases r with
  | error e => exact keeps_pure hy
  | ok e =>
    refine (keeps_of_keepsTags (B := fun _ => True) (C := fun _ => True) ?_ hy).mono fun _ _ h => h.2
    refine only_answer _ fun certificate => ?_
    cases certificate with
    | none => exact only_pure trivial
    | some pem =>
      refine only_answer _ fun time => (only_flushMachine trivial).bind fun _ _ => ?_
      exact (only_flushToken trivial).bind fun _ _ => only_publish trivial (only_pure trivial)

end Enroll

section Import

variable (I : Identification) (J : Importing)

theorem keeps_finishImport_tags {x : Alone Data DataWrite Env} (hx : Consistent x.view) (id : Uuid)
    (base machine : Machine) (isNew : Bool) (payload : List (String × Json)) (collectedAt : Time) :
    (finishImport J id base machine isNew payload collectedAt).CommitsKeep Consistent
      (fun _ y => Consistent y.view) x :=
  (keeps_of_keepsTags (B := fun _ => True) (only_finishImport J KeepsTags.of_apart trivial id base
    machine isNew payload collectedAt fun _ _ => trivial) hx).mono fun _ _ h => h.2

theorem keeps_importPayload_tags (hx : Consistent x.view) (admin : User)
    (payload : List (String × Json)) (machineUuid : String) (fingerprint : Fingerprint)
    (hostname : Option String) :
    (importPayload I J admin payload machineUuid fingerprint hostname).CommitsKeep Consistent
      (fun _ y => Consistent y.view) x := by
  refine keeps_select _ ?_
  cases computeWeightedId I fingerprint with
  | none => exact keeps_pure hx
  | some weighted =>
    refine keeps_after (B := fun _ => False) (only_findImported I _ _ _ _) hx fun found y _ hy => ?_
    match found with
    | none => exact keeps_pure hy
    | some none =>
      refine keeps_answer _ (Prog.CommitsKeep.bind (keeps_fresh (keeps_insert _ ?_)))
      refine keeps_then (keeps_ensureClassification _ none ?_ "bmnn") fun _ z hz => ?_
      · rw [Alone.view_write]
        exact hy.newMachine _ _
      · exact keeps_finishImport_tags J hz _ _ _ true payload _
    | some (some (id, row)) =>
      refine keeps_answer _ (keeps_after (B := fun _ => False) (only_flushMachine trivial) hy
        fun _ z _ hz => ?_)
      refine keeps_then (keeps_ensureClassification _ none (hz.but id) "bmnn") fun _ z hz => ?_
      exact keeps_finishImport_tags J hz _ _ _ false payload _

/-- **An import** keeps the rows consistent. -/
theorem keeps_importOffline_tags (hx : Consistent x.view) (body : OfflineImportRequest)
    (caller : Option Uuid) :
    (importOffline I J body caller).CommitsKeep Consistent (fun _ y => Consistent y.view) x := by
  refine keeps_after (B := fun _ => False) (only_requireAdmin caller) hx fun admin y _ hy => ?_
  cases admin with
  | error e => exact keeps_pure hy
  | ok admin =>
    dsimp -zeta only
    split
    · exact keeps_pure hy
    · extract_lets machineUuid
      split
      · split
        · exact keeps_pure hy
        · exact keeps_importPayload_tags I J hy _ _ _ _ _
      · exact keeps_pure hy

end Import

/-- **A request of a machine or about one** keeps the rows consistent. -/
theorem keeps_fleetRoute_tags (c : FleetSettings) (hx : Consistent x.view) (request : FleetRequest) :
    (fleetRoute c request).CommitsKeep Consistent (fun _ y => Consistent y.view) x := by
  have hkeeps : ∀ {β : Type} {m : Handler β}, m.Only KeepsTags (fun _ => True) (fun _ => True) →
      (m >>= fun _ => pure ()).CommitsKeep Consistent (fun _ y => Consistent y.view) x := fun hm =>
    keeps_after hm hx fun _ _ _ hy => keeps_pure hy
  cases request with
  | enroll body => exact keeps_discard (keeps_enroll_tags c.identification hx body)
  | heartbeat machineCn =>
    exact hkeeps (only_heartbeat KeepsTags.of_apart trivial (fun _ _ _ => trivial) machineCn)
  | sweepOffline =>
    exact (keeps_of_keepsTags (B := fun _ => True) (only_sweepOffline trivial (fun _ _ => trivial) _)
      hx).mono fun _ _ h => h.2
  | approve machineId note caller =>
    exact hkeeps (only_approveMachine _ machineId note caller trivial fun _ _ _ => trivial)
  | reject machineId note caller =>
    exact hkeeps (only_rejectMachine machineId note caller trivial fun _ => trivial)
  | lifecycle machineId lifecycle note caller =>
    exact hkeeps (only_updateLifecycle machineId lifecycle note caller trivial fun _ _ => trivial)
  | importOffline body caller =>
    exact keeps_discard (keeps_importOffline_tags c.identification c.importing hx body caller)
  | resolveDrift driftId approved caller =>
    exact hkeeps (only_resolveDrift _ KeepsTags.of_apart trivial (fun _ _ _ _ _ _ => trivial) driftId
      approved caller)

/-! Edits. -/

theorem keeps_classifyAll (hx : Consistent x.view) (classification : Option String)
    (actor : Option Uuid) (ids : List Uuid) :
    (classifyAll classification actor ids).CommitsKeep Consistent
    (fun _ y => Consistent y.view) x := by
  induction ids generalizing x with
  | nil => exact keeps_pure hx
  | cons id ids ih =>
    cases classification with
    | none => exact keeps_pure hx
    | some key =>
      refine keeps_then (keeps_setMachineClassification id actor hx key) fun done y hy => ?_
      cases done with
      | true => exact ih hy
      | false => exact keeps_pure hy

theorem keeps_setPurposeAll (hx : Consistent x.view) (purpose : Option (List String))
    (actor : Option Uuid) (ids : List Uuid) :
    (setPurposeAll purpose actor ids).CommitsKeep Consistent (fun _ y => Consistent y.view) x := by
  induction ids generalizing x with
  | nil => exact keeps_pure hx
  | cons id ids ih =>
    cases purpose with
    | none => exact keeps_pure hx
    | some keys =>
      exact keeps_then (keeps_setMachinePurposeTags id actor hx keys) fun _ y hy => ih hy

/-- **An edit of the tags of a machine** keeps the rows consistent. -/
theorem keeps_setMachineTags (c : PortalSettings) (hx : Consistent x.view) (machineId : Uuid)
    (classification : Option String) (purpose : Option (List String)) (caller : Option Uuid) :
    (setMachineTags c machineId classification purpose caller).CommitsKeep Consistent
      (fun _ y => Consistent y.view) x := by
  refine keeps_after (B := fun _ => False) (only_requireAdmin caller) hx fun admin y _ hy => ?_
  cases admin with
  | error e => exact keeps_pure hy
  | ok admin =>
    refine keeps_after (B := fun _ => False) (only_getMachineInScope machineId admin.2 _) hy
      fun machine y _ hy => ?_
    cases machine with
    | error e => exact keeps_pure hy
    | ok machine =>
      refine keeps_then (keeps_classifyAll hy _ _ _) fun classified y hy => ?_
      cases classified with
      | error e => exact keeps_pure hy
      | ok _ =>
        refine keeps_then (keeps_setPurposeAll hy _ _ _) fun _ y hy => ?_
        exact keeps_publish _ hy (keeps_select _ (keeps_pure hy))

theorem keeps_tagAllowed (hx : Consistent x.view) (body : BulkTagRequest) (adminId : Uuid)
    (allowed : List Uuid) :
    (tagAllowed body adminId allowed).CommitsKeep Consistent (fun _ y => Consistent y.view) x := by
  rw [tagAllowed]
  split
  · exact keeps_pure hx
  · refine keeps_then (keeps_classifyAll hx _ _ _) fun classified y hy => ?_
    cases classified with
    | error e => exact keeps_pure hy
    | ok _ =>
      refine keeps_then (keeps_setPurposeAll hy _ _ _) fun _ y hy => ?_
      exact keeps_publish _ hy (keeps_pure hy)

/-- **An edit of the tags of several machines** keeps the rows consistent. -/
theorem keeps_setMachineTagsBulk (hx : Consistent x.view) (body : BulkTagRequest)
    (caller : Option Uuid) :
    (setMachineTagsBulk body caller).CommitsKeep Consistent (fun _ y => Consistent y.view) x := by
  refine keeps_after (B := fun _ => False) (only_requireAdmin caller) hx fun admin y _ hy => ?_
  cases admin with
  | error e => exact keeps_pure hy
  | ok admin =>
    refine keeps_select _ (keeps_answer _ (keeps_select _ ?_))
    exact keeps_tagAllowed (x := { y with answers := fun i => y.answers (i + 1) }) hy _ _ _

theorem only_newKey {B : List Note → Prop} {A : DataWrite → Prop} (n : Naming)
    (body : TagCreateRequest) : (body.newKey n).Only A B fun _ => True := by
  have hslug : (slugify n body.label).Only A B fun _ => True := by
    rw [slugify]
    split
    · exact only_pure trivial
    · exact only_fresh fun _ => only_pure trivial
  rw [TagCreateRequest.newKey]
  cases given body.key with
  | none => exact hslug.bind fun _ _ => only_pure trivial
  | some key => exact only_pure trivial

/-- **A new tag** keeps the rows consistent. -/
theorem keeps_createTag (n : Naming) (hx : Consistent x.view) (body : TagCreateRequest)
    (caller : Option Uuid) :
    (createTag n body caller).CommitsKeep Consistent (fun _ y => Consistent y.view) x := by
  have hkey := only_newKey (A := KeepsTags) (B := fun _ => False) n body
  have hadmin : (Callers.requireSuperAdmin Data.users caller : Handler _).Only KeepsTags
      (fun _ => False) fun _ => True := Callers.only_requireRole Data.users _ _ caller
  rw [createTag]
  refine keeps_after hadmin hx fun admin y _ hy => ?_
  cases admin with
  | error e => exact keeps_pure hy
  | ok admin =>
    dsimp only
    split
    · exact keeps_pure hy
    · refine keeps_after hkey hy fun key y _ hy => keeps_select _ ?_
      cases hfound : tagByKey y.view key with
      | some tag => exact keeps_pure hy
      | none =>
        refine keeps_fresh (keeps_insert _ ?_)
        have hnew : ∀ tag : Tag, tag.key = key →
            Consistent (Applies.apply (DataWrite.createTag tag) y.view) := fun tag htag =>
          hy.createTag (htag ▸ hfound)
        refine keeps_publish _ ?_ (keeps_pure ?_)
        · rw [Alone.view_write]
          exact hnew _ rfl
        · rw [Alone.view, applyAll_nil, Alone.view_write]
          exact hnew _ rfl

theorem keeps_ensureTagsFrom (hx : Consistent x.view) (tags : List (String × String))
    (htags : ∀ tag ∈ tags, tag.1 ∈ classificationKeys) (idx : ℤ) :
    (ensureTagsFrom idx tags).CommitsKeep Consistent (fun _ y => Consistent y.view) x := by
  induction tags generalizing idx with
  | nil => exact keeps_pure hx
  | cons tag tags ih =>
    obtain ⟨found, -, hfound, -⟩ := hx.tagByKey_reserved (htags tag List.mem_cons_self)
    refine keeps_select _ ?_
    rw [hfound]
    exact ih (fun t ht => htags t (List.mem_cons_of_mem _ ht)) _

/-- **Every request** keeps the rows consistent. -/
theorem keeps_taggingRoute (c : TaggingSettings) (hx : Consistent x.view) (request : TaggingRequest) :
    (taggingRoute c request).CommitsKeep Consistent (fun _ y => Consistent y.view) x := by
  cases request with
  | startup =>
    refine keeps_then (keeps_ensureTagsFrom hx classificationTags ?_ 1) fun _ y hy => ?_
    · decide
    · exact keeps_publish _ hy (keeps_pure hy)
  | fleet request => exact keeps_fleetRoute_tags c.portal.fleet hx request
  | setTags machineId classification purpose caller =>
    exact keeps_discard (keeps_setMachineTags c.portal hx machineId classification purpose caller)
  | bulkTags body caller => exact keeps_discard (keeps_setMachineTagsBulk hx body caller)
  | createTag body caller => exact keeps_discard (keeps_createTag c.naming hx body caller)

end Routes

/-! ## Edits of purposes -/

/-- A write of an edit that is about purposes only. -/
def AboutPurposes : DataWrite → Prop
  | .clearTags _ kind => kind = .purpose
  | .newTag row => row.kind = .purpose
  | _ => False

/-- Two states with the same tags and the same rows that classify. -/
def SameClassifying (a b : Data) : Prop := a.tags = b.tags ∧ ∀ id, classifying a id = classifying b id

theorem AboutPurposes.sameClassifying {w : DataWrite} (hw : AboutPurposes w) (b d : Data)
    (h : SameClassifying d b) : SameClassifying (Applies.apply w d) b := by
  cases w with
  | clearTags machineId kind =>
    have hkind : kind = .purpose := hw
    rw [hkind]
    exact ⟨h.1, fun id => (classifying_clearPurpose id).trans (h.2 id)⟩
  | newTag row =>
    have hkind : row.kind = .purpose := hw
    refine ⟨h.1, fun id => ?_⟩
    rw [classifying_newTag, if_neg, List.append_nil]
    · exact h.2 id
    · rw [hkind]
      exact fun hrow => by cases hrow.2
  | _ => exact hw.elim

section Purposes

variable {A : DataWrite → Prop} {B : List Note → Prop}

theorem only_setMachinePurposeTags (machineId : Uuid) (actor : Option Uuid) (keys : List String) :
    (setMachinePurposeTags machineId keys actor).Only AboutPurposes B fun _ => True := by
  refine only_select _ fun valid => only_insert rfl ?_
  induction valid with
  | nil => exact only_pure trivial
  | cons tag tags ih => exact only_insert rfl ih

theorem only_setPurposeAll (purpose : Option (List String)) (actor : Option Uuid) (ids : List Uuid) :
    (setPurposeAll purpose actor ids).Only AboutPurposes B fun _ => True := by
  induction ids with
  | nil => exact only_pure trivial
  | cons id ids ih =>
    cases purpose with
    | none => exact only_pure trivial
    | some keys => exact (only_setMachinePurposeTags id actor keys).bind fun _ _ => ih

theorem only_classifyAll_none (actor : Option Uuid) (ids : List Uuid) :
    (classifyAll none actor ids).Only A B fun _ => True := by
  cases ids with
  | nil => exact only_pure trivial
  | cons id ids => exact only_pure trivial

theorem only_discard {α : Type} {m : Handler α} (hm : m.Only A B fun _ => True) :
    (m >>= fun _ => (pure () : Handler Unit)).Only A B fun _ => True :=
  hm.bind fun _ _ => only_pure trivial

theorem only_taggingRoute (c : TaggingSettings) {request : TaggingRequest}
    (hrequest : request.PurposeOnly) :
    (taggingRoute c request).Only AboutPurposes (fun _ => True) fun _ => True := by
  cases request with
  | startup => exact hrequest.elim
  | fleet request => exact hrequest.elim
  | createTag body caller => exact hrequest.elim
  | setTags machineId classification purpose caller =>
    obtain rfl : classification = none := hrequest
    refine only_discard ?_
    refine (only_requireAdmin caller).bind fun admin _ => ?_
    cases admin with
    | error e => exact only_pure trivial
    | ok admin =>
      refine (only_getMachineInScope machineId admin.2 _).bind fun machine _ => ?_
      cases machine with
      | error e => exact only_pure trivial
      | ok machine =>
        refine (only_classifyAll_none _ _).bind fun classified _ => ?_
        cases classified with
        | error e => exact only_pure trivial
        | ok _ =>
          refine (only_setPurposeAll _ _ _).bind fun _ _ => only_publish trivial ?_
          exact only_select _ fun _ => only_pure trivial
  | bulkTags body caller =>
    have hnone : body.classification = none := hrequest
    refine only_discard ?_
    refine (only_requireAdmin caller).bind fun admin _ => ?_
    cases admin with
    | error e => exact only_pure trivial
    | ok admin =>
      refine only_select _ fun visible => only_answer _ fun rank => only_select _ fun rows => ?_
      dsimp only
      rw [tagAllowed]
      split
      · exact only_pure trivial
      · rw [hnone]
        refine (only_classifyAll_none _ _).bind fun classified _ => ?_
        cases classified with
        | error e => exact only_pure trivial
        | ok _ =>
          exact (only_setPurposeAll _ _ _).bind fun _ _ => only_publish trivial (only_pure trivial)

end Purposes

/-! ## Runs -/

/-- No machine, no tag. -/
def Untouched (data : Data) : Prop :=
  data.machines.keys = [] ∧ data.tags = [] ∧ data.machineTags = []

/-- The tags so far at the first start of the server. -/
structure Founding (keys : List String) (drawn : ℕ) (data : Data) : Prop where
  keys_eq : data.tags.map Tag.key = keys
  ids : (data.tags.map Tag.id).Nodup
  drawn : ∀ tag ∈ data.tags, tag.id < drawn
  kinds : ∀ tag ∈ data.tags, tag.kind = .classification
  machineTags : data.machineTags = []
  machines : data.machines.keys = []

theorem Founding.createTag {keys : List String} {n : ℕ} {d : Data} (h : Founding keys n d)
    {key : String} (hkey : key ∉ keys) (idx : ℤ) (label : String) : Founding (keys ++ [key]) (n + 1)
      (Applies.apply (DataWrite.createTag (systemTag n idx key label)) d) := by
  have hclash : ¬ (d.tags.any fun t => decide (t.id = n ∨ t.key = key)) = true := by
    intro hany
    obtain ⟨t, ht, hprop⟩ := List.any_eq_true.mp hany
    rw [decide_eq_true_iff] at hprop
    rcases hprop with hid | htkey
    · exact Nat.ne_of_lt (h.drawn t ht) hid
    · exact hkey (h.keys_eq ▸ List.mem_map.mpr ⟨t, ht, htkey⟩)
  have htags : (Applies.apply (DataWrite.createTag (systemTag n idx key label)) d).tags =
      d.tags ++ [systemTag n idx key label] := if_neg hclash
  refine ⟨?_, ?_, fun tag htag => ?_, fun tag htag => ?_, h.machineTags, h.machines⟩
  · rw [htags, List.map_append, h.keys_eq]
    rfl
  · rw [htags, List.map_append, List.nodup_append]
    refine ⟨h.ids, by simp, fun a ha b hb => ?_⟩
    obtain ⟨t, ht, rfl⟩ := List.mem_map.mp ha
    rw [List.map_singleton, List.mem_singleton] at hb
    have hb : b = n := hb
    exact hb ▸ Nat.ne_of_lt (h.drawn t ht)
  · rw [htags] at htag
    rcases List.mem_append.mp htag with htag | htag
    · exact (h.drawn tag htag).trans (Nat.lt_succ_self n)
    · rw [List.mem_singleton.mp htag]
      exact Nat.lt_succ_self n
  · rw [htags] at htag
    rcases List.mem_append.mp htag with htag | htag
    · exact h.kinds tag htag
    · rw [List.mem_singleton.mp htag]
      rfl

theorem Founding.consistent {n : ℕ} {d : Data} (h : Founding classificationKeys n d) :
    Consistent d := by
  have hnone : ∀ id, classifying d id = [] := by
    intro id
    rw [classifying, h.machineTags]
    rfl
  have hkeys : classificationKeys.Nodup := by decide
  refine ⟨⟨h.keys_eq ▸ hkeys, h.ids, fun key hkey => ?_, ?_, ?_, fun id => ?_⟩, fun id m hm => ?_⟩
  · rw [← h.keys_eq] at hkey
    obtain ⟨tag, htag, hkey⟩ := List.mem_map.mp hkey
    exact ⟨tag, htag, hkey, h.kinds tag htag⟩
  · rw [h.machineTags]
    exact List.forall_mem_nil _
  · rw [h.machineTags]
    exact List.nodup_nil
  · rw [hnone]
    exact Nat.zero_le 1
  · have hmem := Table.mem_keys_of_get hm
    rw [h.machines] at hmem
    exact absurd hmem List.not_mem_nil

theorem founding_ensureTagsFrom {I : Data → Prop} {keys : List String}
    {x : Alone Data DataWrite Env} (tags : List (String × String))
    (hx : Founding keys x.drawn x.view) (hnew : (keys ++ tags.map Prod.fst).Nodup) (idx : ℤ) :
    (ensureTagsFrom idx tags).CommitsKeep I
      (fun _ y => Founding (keys ++ tags.map Prod.fst) y.drawn y.view) x := by
  induction tags generalizing keys x idx with
  | nil =>
    rw [List.map_nil, List.append_nil]
    exact keeps_pure hx
  | cons tag tags ih =>
    have hmove : keys ++ (tag :: tags).map Prod.fst = (keys ++ [tag.1]) ++ tags.map Prod.fst := by
      simp
    have hkey : tag.1 ∉ keys := by
      intro hmem
      have hdisjoint := (List.nodup_append.mp hnew).2.2 tag.1 hmem tag.1
      exact hdisjoint List.mem_cons_self rfl
    have hnone : tagByKey x.view tag.1 = none := by
      refine List.find?_eq_none.mpr fun t ht htkey => ?_
      rw [decide_eq_true_iff] at htkey
      exact hkey (hx.keys_eq ▸ List.mem_map.mpr ⟨t, ht, htkey⟩)
    refine keeps_select _ ?_
    rw [hnone]
    refine keeps_fresh (keeps_insert _ ?_)
    rw [hmove]
    refine ih ?_ (hmove ▸ hnew) _
    rw [Alone.view_write]
    exact hx.createTag hkey idx tag.2

/-- **The start of the server** on an empty database. -/
theorem consistent_startup (c : TaggingSettings) {s : AtRest Data} (hs : Untouched s.data)
    (answers : ℕ → Env) : Consistent (serveAlone (taggingRoute c) s .startup answers).2.data := by
  have hstart : Founding [] s.drawn s.data := by
    obtain ⟨hmachines, htags, hmachineTags⟩ := hs
    exact ⟨by rw [htags]; rfl, by rw [htags]; exact List.nodup_nil,
      by rw [htags]; exact List.forall_mem_nil _, by rw [htags]; exact List.forall_mem_nil _,
      hmachineTags, hmachines⟩
  have hkeep : (taggingRoute c .startup).CommitsKeep Consistent
      (fun _ y => Consistent y.data) ⟨s.data, [], s.drawn, answers⟩ := by
    have hnodup : ([] ++ classificationTags.map Prod.fst).Nodup := by decide
    refine Prog.CommitsKeep.bind ((founding_ensureTagsFrom classificationTags hstart hnodup 1).mono
      fun _ y hy => ?_)
    have hconsistent : Consistent y.view := hy.consistent
    exact keeps_publish _ hconsistent (keeps_pure hconsistent)
  exact hkeep.ends

/-- **One classification for a machine**: from an empty database, whatever is requested after the start of
the server, the rows are well tagged, and an edit that asks for no classification changes none. -/
theorem wellTagged_of_served (c : TaggingSettings) {s t : AtRest Data} (hs : Untouched s.data)
    {answers : ℕ → Env}
    (hrun : Runs (taggingServe c) anyAction (serveAlone (taggingRoute c) s .startup answers).2 t) :
    WellTagged t.data ∧ ∀ request : TaggingRequest, request.PurposeOnly → ∀ answers machineId,
      classificationOf (serveAlone (taggingRoute c) t request answers).2.data machineId =
        classificationOf t.data machineId := by
  have hconsistent : Consistent t.data := invariant_of_served (fun s request answers hs _ =>
    (keeps_taggingRoute c (x := ⟨s.data, [], s.drawn, answers⟩) hs request).mono
      fun _ _ _ => trivial) (consistent_startup c hs answers) hrun
  refine ⟨hconsistent.wellTagged, fun request hrequest answers machineId => ?_⟩
  have hafter : Consistent (serveAlone (taggingRoute c) t request answers).2.data :=
    (keeps_taggingRoute c (x := ⟨t.data, [], t.drawn, answers⟩) hconsistent request).data hconsistent
  have hsame : SameClassifying (serveAlone (taggingRoute c) t request answers).2.data t.data :=
    ((only_taggingRoute c hrequest).commitsKeep_view
      (fun _ hw d hd => hw.sameClassifying t.data d hd) (x := ⟨t.data, [], t.drawn, answers⟩)
      ⟨rfl, fun _ => rfl⟩).data ⟨rfl, fun _ => rfl⟩
  have htagOf : tagOf (serveAlone (taggingRoute c) t request answers).2.data = tagOf t.data := by
    funext row
    rw [tagOf, hsame.1, tagOf]
  rw [hafter.classificationOf_eq, hconsistent.classificationOf_eq, hsame.2, htagOf]

/-- Settings to serve requests with. -/
def exampleTagging : TaggingSettings where
  portal :=
    { fleet := exampleFleet
      orgName := fun _ => none
      collation := fun _ => 0
      maskPhone := id
      encryptPhone := id
      tokenText := fun _ => ""
      requestDefinedAt := 0 }
  naming := ⟨id, fun _ => ""⟩

theorem wellTagged_of_enrollment : ∃ t, Runs (taggingServe exampleTagging) anyAction
        (serveAlone (taggingRoute exampleTagging)
          ⟨{ adminData with tokens := Table.empty.insert 0 exampleToken }, 0⟩ .startup
          fun _ => exampleAnswer).2 t ∧
      (classificationOf t.data 3).map Tag.key = ["personal"] ∧ WellTagged t.data := by
  have hrun : Runs (taggingServe exampleTagging) anyAction
      (serveAlone (taggingRoute exampleTagging)
        ⟨{ adminData with tokens := Table.empty.insert 0 exampleToken }, 0⟩ .startup
        fun _ => exampleAnswer).2 _ :=
    (Runs.single (.fleet (exampleEnrollment "4C4C4544"), fun _ => exampleAnswer) trivial rfl).tail
      (.setTags 3 (some "personal") none (some 0), fun _ => exampleAnswer) trivial rfl
  exact ⟨_, hrun, by decide +kernel, (wellTagged_of_served exampleTagging ⟨rfl, rfl, rfl⟩ hrun).1⟩

end AssetInventory.Fleet
